import CGateway.Lib.Machine

/-! # The circuit breaker

`circuit_breaker.c`: a breaker that is CLOSED while calls go well, OPEN (failing fast) after too many
consecutive failures, and HALF_OPEN while it probes for recovery. Every public function holds the
breaker's mutex from its first line to its last, so one call is one atomic step, and a run is a
sequence of calls. A clock reading is an argument of the call that takes it. -/

namespace CGateway

open Machine

/-- The three states of a breaker (`cb_state_t`). -/
inductive CbState where
  /-- `CB_STATE_CLOSED`: normal operation. -/
  | stateClosed
  /-- `CB_STATE_OPEN`: failing fast. -/
  | stateOpen
  /-- `CB_STATE_HALF_OPEN`: testing recovery. -/
  | stateHalfOpen
  deriving DecidableEq, Repr

/-- The configuration of a breaker (`cb_config_t`). -/
structure CbConfig where
  /-- Failures before opening. -/
  failureThreshold : UInt32
  /-- Successes to close from half-open. -/
  successThreshold : UInt32
  /-- Time in the open state before half-open. -/
  timeoutMs : UInt32
  /-- Cap on the calls admitted in half-open. -/
  halfOpenMaxCalls : UInt32
  deriving DecidableEq, Repr

/-- A breaker (`struct circuit_breaker`, without its mutex). -/
structure CircuitBreaker where
  config : CbConfig
  state : CbState
  consecutiveFailures : UInt32
  consecutiveSuccesses : UInt32
  halfOpenCalls : UInt32
  totalSuccesses : UInt64
  totalFailures : UInt64
  totalRejects : UInt64
  /-- Clock reading at the last change of state. -/
  stateChangedAtMs : UInt64
  deriving DecidableEq, Repr

namespace CircuitBreaker

/-- `circuit_breaker_create`: a closed breaker with all counters zero. -/
def create (config : CbConfig) (now : UInt64) : CircuitBreaker where
  config := config
  state := .stateClosed
  consecutiveFailures := 0
  consecutiveSuccesses := 0
  halfOpenCalls := 0
  totalSuccesses := 0
  totalFailures := 0
  totalRejects := 0
  stateChangedAtMs := now

/-- `transition_to_open`. The half-open call counter is left as it is. -/
def transitionToOpen (cb : CircuitBreaker) (now : UInt64) : CircuitBreaker :=
  { cb with
    state := .stateOpen
    consecutiveFailures := 0
    consecutiveSuccesses := 0
    stateChangedAtMs := now }

/-- `transition_to_half_open`. The failure counter is left as it is. -/
def transitionToHalfOpen (cb : CircuitBreaker) (now : UInt64) : CircuitBreaker :=
  { cb with
    state := .stateHalfOpen
    halfOpenCalls := 0
    consecutiveSuccesses := 0
    stateChangedAtMs := now }

/-- `transition_to_closed`. -/
def transitionToClosed (cb : CircuitBreaker) (now : UInt64) : CircuitBreaker :=
  { cb with
    state := .stateClosed
    consecutiveFailures := 0
    consecutiveSuccesses := 0
    halfOpenCalls := 0
    stateChangedAtMs := now }

/-- `circuit_breaker_allow_request`. `now` is the reading compared with the timeout and `later` the
second one, which `transition_to_half_open` takes; the answer is `true` for the C result 1. -/
def allowRequest (cb : CircuitBreaker) (now later : UInt64) : CircuitBreaker × Bool :=
  match cb.state with
  | .stateClosed => (cb, true)
  | .stateOpen =>
      let elapsed := now - cb.stateChangedAtMs
      if elapsed ≥ cb.config.timeoutMs.toUInt64 then (cb.transitionToHalfOpen later, true)
      else ({ cb with totalRejects := cb.totalRejects + 1 }, false)
  | .stateHalfOpen =>
      if cb.halfOpenCalls < cb.config.halfOpenMaxCalls then
        ({ cb with halfOpenCalls := cb.halfOpenCalls + 1 }, true)
      else ({ cb with totalRejects := cb.totalRejects + 1 }, false)

/-- `circuit_breaker_on_success`. -/
def onSuccess (cb : CircuitBreaker) (now : UInt64) : CircuitBreaker :=
  let cb' := { cb with
    totalSuccesses := cb.totalSuccesses + 1
    consecutiveSuccesses := cb.consecutiveSuccesses + 1
    consecutiveFailures := 0 }
  if cb'.state = .stateHalfOpen ∧ cb'.consecutiveSuccesses ≥ cb'.config.successThreshold then
    cb'.transitionToClosed now
  else cb'

/-- `circuit_breaker_on_failure`. -/
def onFailure (cb : CircuitBreaker) (now : UInt64) : CircuitBreaker :=
  let cb' := { cb with
    totalFailures := cb.totalFailures + 1
    consecutiveFailures := cb.consecutiveFailures + 1
    consecutiveSuccesses := 0 }
  match cb'.state with
  | .stateClosed =>
      if cb'.consecutiveFailures ≥ cb'.config.failureThreshold then cb'.transitionToOpen now else cb'
  | .stateHalfOpen => cb'.transitionToOpen now
  | .stateOpen => cb'

/-- `circuit_breaker_reset`. -/
def reset (cb : CircuitBreaker) (now : UInt64) : CircuitBreaker := cb.transitionToClosed now

end CircuitBreaker

/-! ### Calls and runs -/

/-- A call on a breaker, with the clock readings it takes. -/
inductive BreakerCall where
  /-- `circuit_breaker_allow_request`: the first reading and the one of a transition. -/
  | allowRequest (now later : UInt64)
  /-- `circuit_breaker_on_success`. -/
  | onSuccess (now : UInt64)
  /-- `circuit_breaker_on_failure`. -/
  | onFailure (now : UInt64)
  /-- `circuit_breaker_reset`. -/
  | reset (now : UInt64)
  deriving DecidableEq, Repr

namespace BreakerCall

/-- The readings a call takes, the latest first. -/
def readings : BreakerCall → List UInt64
  | allowRequest now later => [later, now]
  | onSuccess now | onFailure now | reset now => [now]

/-- The reading a transition made by the call is dated with. -/
def dated : BreakerCall → UInt64
  | allowRequest _ later => later
  | onSuccess now | onFailure now | reset now => now

/-- The call reports a success. -/
def IsSuccess (c : BreakerCall) : Prop := ∃ now, c = onSuccess now

/-- The call reports a failure. -/
def IsFailure (c : BreakerCall) : Prop := ∃ now, c = onFailure now

/-- The call is a reset. -/
def IsReset (c : BreakerCall) : Prop := ∃ now, c = reset now

/-- The call asks for admission. -/
def IsAllow (c : BreakerCall) : Prop := ∃ now later, c = allowRequest now later

/-- `IsAllow` as a test. -/
def isAllow : BreakerCall → Bool
  | allowRequest _ _ => true
  | onSuccess _ | onFailure _ | reset _ => false

end BreakerCall

/-- One call on a breaker: only `allow_request` answers. -/
def breakerStep (cb : CircuitBreaker) : BreakerCall → CircuitBreaker × Option Bool
  | .allowRequest now later => ((cb.allowRequest now later).1, some (cb.allowRequest now later).2)
  | .onSuccess now => (cb.onSuccess now, none)
  | .onFailure now => (cb.onFailure now, none)
  | .reset now => (cb.reset now, none)

/-- A step of a breaker as its history keeps it. -/
abbrev BreakerRecord := Record CircuitBreaker BreakerCall (Option Bool)

/-- A run of a breaker created with `config` at reading `t₀`. -/
abbrev BreakerRun (config : CbConfig) (t₀ : UInt64) :
    List BreakerRecord → CircuitBreaker → Prop :=
  Run breakerStep (CircuitBreaker.create config t₀)

/-! ### What a step can do

One inversion for each state the breaker can be in; every law below is read off these. -/

section Steps

variable (cb : CircuitBreaker)

/-- A counter below a 32-bit threshold does not wrap around when it is incremented. -/
theorem toNat_succ_of_lt {a b : UInt32} (h : a.toNat < b.toNat) : (a + 1).toNat = a.toNat + 1 := by
  have hb := b.toNat_lt
  rw [UInt32.toNat_add, UInt32.toNat_one]
  omega

/-- No call changes the configuration. -/
@[simp] theorem breakerStep_config (c : BreakerCall) : (breakerStep cb c).1.config = cb.config := by
  cases c with
  | allowRequest now later =>
    simp only [breakerStep, CircuitBreaker.allowRequest]
    split
    · rfl
    · split <;> rfl
    · split <;> rfl
  | onSuccess now =>
    simp only [breakerStep, CircuitBreaker.onSuccess]
    split <;> rfl
  | onFailure now =>
    simp only [breakerStep, CircuitBreaker.onFailure]
    split
    · split <;> rfl
    · rfl
    · rfl
  | reset now => rfl

/-- Only an admission request is answered. -/
theorem breakerStep_isSome (c : BreakerCall) : (breakerStep cb c).2.isSome = c.isAllow := by
  cases c <;> rfl

/-- A reset closes the breaker and clears its counters. -/
theorem breakerStep_reset (now : UInt64) : breakerStep cb (.reset now) = (cb.transitionToClosed now, none) := rfl

/-- Admission in CLOSED: always, and nothing changes. -/
theorem breakerStep_allow_closed (h : cb.state = .stateClosed) (now later : UInt64) :
    breakerStep cb (.allowRequest now later) = (cb, some true) := by
  simp [breakerStep, CircuitBreaker.allowRequest, h]

/-- Admission in OPEN: refused before the timeout, and the transition to HALF_OPEN after it. -/
theorem breakerStep_allow_open (h : cb.state = .stateOpen) (now later : UInt64) :
    breakerStep cb (.allowRequest now later) =
      if now - cb.stateChangedAtMs ≥ cb.config.timeoutMs.toUInt64 then
        (cb.transitionToHalfOpen later, some true)
      else ({ cb with totalRejects := cb.totalRejects + 1 }, some false) := by
  simp only [breakerStep, CircuitBreaker.allowRequest, h]
  split <;> rfl

/-- Admission in HALF_OPEN: as long as the call counter is below the cap. -/
theorem breakerStep_allow_halfOpen (h : cb.state = .stateHalfOpen) (now later : UInt64) :
    breakerStep cb (.allowRequest now later) =
      if cb.halfOpenCalls < cb.config.halfOpenMaxCalls then
        ({ cb with halfOpenCalls := cb.halfOpenCalls + 1 }, some true)
      else ({ cb with totalRejects := cb.totalRejects + 1 }, some false) := by
  simp only [breakerStep, CircuitBreaker.allowRequest, h]
  split <;> rfl

/-- A success outside HALF_OPEN keeps the state and clears the failure counter. -/
theorem breakerStep_success_other (h : cb.state ≠ .stateHalfOpen) (now : UInt64) :
    breakerStep cb (.onSuccess now) =
      ({ cb with
          totalSuccesses := cb.totalSuccesses + 1
          consecutiveSuccesses := cb.consecutiveSuccesses + 1
          consecutiveFailures := 0 }, none) := by
  simp [breakerStep, CircuitBreaker.onSuccess, h]

/-- A success in HALF_OPEN closes the breaker when it completes the threshold. -/
theorem breakerStep_success_halfOpen (h : cb.state = .stateHalfOpen) (now : UInt64) :
    breakerStep cb (.onSuccess now) =
      if cb.consecutiveSuccesses + 1 ≥ cb.config.successThreshold then
        (({ cb with
            totalSuccesses := cb.totalSuccesses + 1
            consecutiveSuccesses := cb.consecutiveSuccesses + 1
            consecutiveFailures := 0 } : CircuitBreaker).transitionToClosed now, none)
      else
        ({ cb with
            totalSuccesses := cb.totalSuccesses + 1
            consecutiveSuccesses := cb.consecutiveSuccesses + 1
            consecutiveFailures := 0 }, none) := by
  simp only [breakerStep, CircuitBreaker.onSuccess, h, true_and]
  split <;> rfl

/-- A failure in CLOSED opens the breaker when it completes the threshold. -/
theorem breakerStep_failure_closed (h : cb.state = .stateClosed) (now : UInt64) :
    breakerStep cb (.onFailure now) =
      if cb.consecutiveFailures + 1 ≥ cb.config.failureThreshold then
        (({ cb with
            totalFailures := cb.totalFailures + 1
            consecutiveFailures := cb.consecutiveFailures + 1
            consecutiveSuccesses := 0 } : CircuitBreaker).transitionToOpen now, none)
      else
        ({ cb with
            totalFailures := cb.totalFailures + 1
            consecutiveFailures := cb.consecutiveFailures + 1
            consecutiveSuccesses := 0 }, none) := by
  simp only [breakerStep, CircuitBreaker.onFailure, h]
  split <;> rfl

/-- A failure in HALF_OPEN opens the breaker. -/
theorem breakerStep_failure_halfOpen (h : cb.state = .stateHalfOpen) (now : UInt64) :
    breakerStep cb (.onFailure now) =
      (({ cb with
          totalFailures := cb.totalFailures + 1
          consecutiveFailures := cb.consecutiveFailures + 1
          consecutiveSuccesses := 0 } : CircuitBreaker).transitionToOpen now, none) := by
  simp [breakerStep, CircuitBreaker.onFailure, h]

/-- A failure in OPEN only counts. -/
theorem breakerStep_failure_open (h : cb.state = .stateOpen) (now : UInt64) :
    breakerStep cb (.onFailure now) =
      ({ cb with
          totalFailures := cb.totalFailures + 1
          consecutiveFailures := cb.consecutiveFailures + 1
          consecutiveSuccesses := 0 }, none) := by
  simp [breakerStep, CircuitBreaker.onFailure, h]

end Steps

end CGateway
