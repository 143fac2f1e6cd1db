import Mathlib.Algebra.Order.Ring.Int
import CGateway.Lib.Machine

/-! # The state of the NATS connection

`nats_resilience.c`: the connection state, the requests in flight, the errors in a row and the backoff.
`int` arithmetic that can leave its range (the doubling of the backoff) is taken modulo `2 ^ 32`, the
error counters are `size_t`; the number of requests in flight is kept in `ℤ`.

* `natsResilienceCanAccept`, `natsResilienceRequestStart`, `natsResilienceRequestComplete`,
  `natsResilienceMarkConnected` — the operations;
* `failuresSince` — the failures a history has had since the last good sign;
* `connection_state_law` — the state of the connection, from the history alone. -/

namespace CGateway

open Machine

/-! ### The operations -/

/-- `nats_connection_state_t`. -/
inductive NatsConnectionState where
  | disconnected
  | connected
  | degraded
  | reconnecting
  deriving DecidableEq, Repr

/-- `nats_resilience_config_t`. -/
structure NatsResilienceConfig where
  maxInflight : ℤ
  minBackoffMs : ℤ
  maxBackoffMs : ℤ
  degradedThreshold : ℤ
  reconnectAttempts : ℤ
  deriving DecidableEq, Repr

/-- `nats_resilience_t`. -/
structure NatsResilience where
  config : NatsResilienceConfig
  state : NatsConnectionState
  inflightCount : ℤ
  consecutiveErrors : UInt64
  totalErrors : UInt64
  reconnectAttempts : ℤ
  currentBackoffMs : ℤ
  lastErrorTime : ℤ
  deriving DecidableEq, Repr

/-- The configuration without one. -/
def NatsResilienceConfig.default : NatsResilienceConfig := ⟨100, 100, 30000, 3, 0⟩

/-- The configuration as `nats_resilience_init` corrects it; the threshold is taken as it is. -/
def NatsResilienceConfig.validated (config : NatsResilienceConfig) : NatsResilienceConfig :=
  { config with
    maxInflight := if config.maxInflight ≤ 0 then 100 else config.maxInflight
    minBackoffMs := if config.minBackoffMs ≤ 0 then 100 else config.minBackoffMs
    maxBackoffMs := if config.maxBackoffMs ≤ 0 then 30000 else config.maxBackoffMs }

/-- `nats_resilience_init`. -/
def natsResilienceInit (config : Option NatsResilienceConfig) : NatsResilience :=
  let config := (config.getD .default).validated
  ⟨config, .disconnected, 0, 0, 0, 0, config.minBackoffMs, 0⟩

/-- `nats_resilience_can_accept`. -/
def natsResilienceCanAccept (res : NatsResilience) : Bool :=
  if res.config.maxInflight ≤ res.inflightCount then false
  else if res.state = .disconnected ∨ res.state = .reconnecting then false
  else true

/-- `nats_resilience_request_start`. -/
def natsResilienceRequestStart (res : NatsResilience) : NatsResilience :=
  { res with inflightCount := res.inflightCount + 1 }

/-- The counter part of `nats_resilience_request_complete`. -/
def NatsResilience.leave (res : NatsResilience) : NatsResilience :=
  { res with
    inflightCount := if 0 < res.inflightCount then res.inflightCount - 1 else res.inflightCount }

/-- The success branch of `nats_resilience_request_complete`. -/
def NatsResilience.succeed (res : NatsResilience) : NatsResilience :=
  if res.state = .degraded then
    { res with
      consecutiveErrors := 0
      state := .connected
      currentBackoffMs := res.config.minBackoffMs }
  else { res with consecutiveErrors := 0 }

/-- The backoff is doubled first and capped then. -/
def nextBackoff (config : NatsResilienceConfig) (backoff : ℤ) : ℤ :=
  let doubled := (backoff * 2).bmod (2 ^ 32)
  if config.maxBackoffMs < doubled then config.maxBackoffMs else doubled

/-- The failure branch of `nats_resilience_request_complete`; the threshold is compared as a `size_t`. -/
def NatsResilience.fail (now : ℤ) (res : NatsResilience) : NatsResilience :=
  let errors := res.consecutiveErrors + 1
  { res with
    consecutiveErrors := errors
    totalErrors := res.totalErrors + 1
    lastErrorTime := now
    state :=
      if UInt64.ofInt res.config.degradedThreshold ≤ errors ∧ res.state = .connected then .degraded
      else res.state
    currentBackoffMs := nextBackoff res.config res.currentBackoffMs }

/-- `nats_resilience_request_complete`; `now` is the clock a failure reads. -/
def natsResilienceRequestComplete (success : Bool) (now : ℤ) (res : NatsResilience) :
    NatsResilience :=
  if success then res.leave.succeed else res.leave.fail now

/-- `nats_resilience_mark_connected`. -/
def natsResilienceMarkConnected (res : NatsResilience) : NatsResilience :=
  { res with
    state := .connected
    consecutiveErrors := 0
    currentBackoffMs := res.config.minBackoffMs
    reconnectAttempts := 0 }

/-- `nats_resilience_get_state`, without a handle `DISCONNECTED`. -/
def natsResilienceGetState : Option NatsResilience → NatsConnectionState
  | none => .disconnected
  | some res => res.state

/-- A call on the connection. -/
inductive ResilienceCall where
  | canAccept
  | requestStart
  | requestComplete (success : Bool) (now : ℤ)
  | markConnected
  deriving DecidableEq, Repr

/-- One call, with its answer where it has one. -/
def resilienceStep (res : NatsResilience) : ResilienceCall → NatsResilience × Option Bool
  | .canAccept => (res, some (natsResilienceCanAccept res))
  | .requestStart => (natsResilienceRequestStart res, none)
  | .requestComplete success now => (natsResilienceRequestComplete success now res, none)
  | .markConnected => (natsResilienceMarkConnected res, none)

/-- A step of a run, as the history keeps it. -/
abbrev ResilienceRecord := Record NatsResilience ResilienceCall (Option Bool)

/-- A run from a fresh connection. -/
abbrev ResilienceRun (config : NatsResilienceConfig) (past : List ResilienceRecord)
    (res : NatsResilience) : Prop :=
  Run resilienceStep (natsResilienceInit (some config)) past res

/-! ### What a call leaves alone -/

section Fields

variable (res : NatsResilience) (now : ℤ)

@[simp] theorem NatsResilience.succeed_config : res.succeed.config = res.config := by
  rw [succeed]
  split <;> rfl

@[simp] theorem NatsResilience.succeed_consecutiveErrors : res.succeed.consecutiveErrors = 0 := by
  rw [succeed]
  split <;> rfl

@[simp] theorem NatsResilience.succeed_inflightCount : res.succeed.inflightCount = res.inflightCount := by
  rw [succeed]
  split <;> rfl

/-- A success ends a degraded period. -/
theorem NatsResilience.succeed_state : res.succeed.state = if res.state = .degraded then .connected else res.state := by
  rw [succeed]
  split <;> rfl

/-- No call changes the configuration. -/
theorem resilienceStep_config (call : ResilienceCall) : (resilienceStep res call).1.config = res.config := by
  cases call with
  | canAccept => rfl
  | requestStart => rfl
  | markConnected => rfl
  | requestComplete success now =>
    cases success with
    | true => exact res.leave.succeed_config
    | false => rfl

end Fields

/-! ### The law of the state -/

/-- Some call of the history was `nats_resilience_mark_connected`. -/
def everConnected (past : List ResilienceRecord) : Bool := past.any (·.input = .markConnected)

/-- The failed completions since the later of the last successful completion and the last
`nats_resilience_mark_connected`. -/
def failuresSince : List ResilienceRecord → ℕ
  | [] => 0
  | r :: past =>
      match r.input with
      | .canAccept | .requestStart => failuresSince past
      | .requestComplete true _ | .markConnected => 0
      | .requestComplete false _ => failuresSince past + 1

/-- The state that a history calls for. -/
def lawState (threshold : ℤ) (ever : Bool) (failures : ℕ) : NatsConnectionState :=
  if !ever then .disconnected
  else if threshold ≤ failures then .degraded
  else .connected

/-- What carries the law through a run: a connected connection has counted its failures. One that is
degraded, or not connected yet, may have counted past the range of `size_t`. -/
structure FollowsLaw (threshold : ℤ) (past : List ResilienceRecord) (res : NatsResilience) : Prop where
  threshold_eq : res.config.degradedThreshold = threshold
  state_eq : res.state = lawState threshold (everConnected past) (failuresSince past)
  counted : res.state = .connected → res.consecutiveErrors.toNat = failuresSince past

section Law

variable {threshold : ℤ} {past : List ResilienceRecord} {res : NatsResilience}

/-- The law asks for a connected state below the threshold only. -/
theorem lawState_eq_connected_iff {ever : Bool} {failures : ℕ} :
    lawState threshold ever failures = .connected ↔ ever = true ∧ (failures : ℤ) < threshold := by
  rw [lawState]
  cases ever with
  | false => simp
  | true =>
    by_cases hreached : threshold ≤ failures
    · simp [hreached]
    · simp [hreached, Int.not_le.mp hreached]

/-- Where the law does not ask for a connected state, one more failure changes nothing. -/
theorem lawState_succ {ever : Bool} {failures : ℕ} (h : lawState threshold ever failures ≠ .connected) :
    lawState threshold ever (failures + 1) = lawState threshold ever failures := by
  cases ever with
  | false => rfl
  | true =>
    have hreached : threshold ≤ failures := by
      by_contra hbelow
      exact h (lawState_eq_connected_iff.mpr ⟨rfl, Int.not_le.mp hbelow⟩)
    simp only [lawState, hreached, if_true]
    rw [if_pos (by push_cast; omega : threshold ≤ ((failures + 1 : ℕ) : ℤ))]

/-- With a positive threshold no failure at all is not enough for a degraded state. -/
theorem lawState_zero (hpos : 1 ≤ threshold) (ever : Bool) :
    lawState threshold ever 0 = if ever then .connected else .disconnected := by
  cases ever with
  | false => rfl
  | true => exact lawState_eq_connected_iff.mpr ⟨rfl, by push_cast; omega⟩

/-- A threshold in the range of `int` is the same number as a `size_t`. -/
theorem toNat_ofInt_threshold (hpos : 1 ≤ threshold) (hint : threshold < 2 ^ 31) :
    ((UInt64.ofInt threshold).toNat : ℤ) = threshold := by
  obtain ⟨n, rfl⟩ := Int.eq_ofNat_of_zero_le (by omega : 0 ≤ threshold)
  have hmod : ((n : ℤ) % 2 ^ 64).toNat = n := by omega
  rw [UInt64.ofInt, hmod, UInt64.toNat_ofNat_of_lt' (by omega : n < 2 ^ 64)]

/-- One more error is counted without wrapping while the connection is below its threshold. -/
theorem toNat_errors_succ {errors : UInt64} (hsmall : errors.toNat < 2 ^ 31) :
    (errors + 1).toNat = errors.toNat + 1 := by
  rw [UInt64.toNat_add]
  show (errors.toNat + 1) % 2 ^ 64 = _
  omega

/-- A failure follows the law: it degrades a connection that is connected when the count reaches the
threshold, and leaves any other one as it is. -/
theorem FollowsLaw.fail (hpos : 1 ≤ threshold) (hint : threshold < 2 ^ 31)
    (h : FollowsLaw threshold past res) (now : ℤ) :
    FollowsLaw threshold
      (recordOf resilienceStep res (.requestComplete false now) :: past) (res.leave.fail now) := by
  by_cases hconnected : res.state = .connected
  · obtain ⟨hever, hbelow⟩ := lawState_eq_connected_iff.mp (h.state_eq.symm.trans hconnected)
    have hsucc : (res.consecutiveErrors + 1).toNat = failuresSince past + 1 := by
      have hcount := h.counted hconnected
      rw [toNat_errors_succ (by omega), hcount]
    have hreach : UInt64.ofInt res.config.degradedThreshold ≤ res.consecutiveErrors + 1 ↔
        threshold ≤ ((failuresSince past + 1 : ℕ) : ℤ) := by
      have hthr := toNat_ofInt_threshold hpos hint
      rw [UInt64.le_iff_toNat_le, hsucc, h.threshold_eq]
      omega
    refine ⟨h.threshold_eq, ?_, fun _ => hsucc⟩
    show (if UInt64.ofInt res.config.degradedThreshold ≤ res.consecutiveErrors + 1 ∧
      res.state = .connected then NatsConnectionState.degraded else res.state) =
        lawState threshold (everConnected past) (failuresSince past + 1)
    simp only [hreach, hconnected, and_true, hever, lawState, Bool.not_true, Bool.false_eq_true, if_false]
  · -- the state stays as it is, and the law still asks for it
    have hsame : (res.leave.fail now).state = res.state := if_neg (fun hboth => hconnected hboth.2)
    refine ⟨h.threshold_eq, ?_, fun hc => absurd (hsame.symm.trans hc) hconnected⟩
    rw [h.state_eq] at hconnected
    rw [hsame, h.state_eq]
    exact (lawState_succ hconnected).symm

/-- A success follows the law: it leaves no failure to count. -/
theorem FollowsLaw.succeed (hpos : 1 ≤ threshold) (h : FollowsLaw threshold past res) (now : ℤ) :
    FollowsLaw threshold
      (recordOf resilienceStep res (.requestComplete true now) :: past) res.leave.succeed := by
  have hstate : res.leave.state = lawState threshold (everConnected past) (failuresSince past) := h.state_eq
  refine ⟨?_, ?_, ?_⟩
  · rw [NatsResilience.succeed_config]
    exact h.threshold_eq
  · show res.leave.succeed.state = lawState threshold (everConnected past) 0
    rw [NatsResilience.succeed_state, hstate, lawState_zero hpos, lawState]
    cases everConnected past with
    | false => rfl
    | true =>
      simp only [Bool.not_true, Bool.false_eq_true, if_false, if_true]
      split <;> rfl
  · intro _
    rw [NatsResilience.succeed_consecutiveErrors]
    rfl

/-- **A step follows the law.** -/
theorem FollowsLaw.step (hpos : 1 ≤ threshold) (hint : threshold < 2 ^ 31)
    (h : FollowsLaw threshold past res) (call : ResilienceCall) :
    FollowsLaw threshold (recordOf resilienceStep res call :: past) (resilienceStep res call).1 := by
  cases call with
  | canAccept => exact ⟨h.threshold_eq, h.state_eq, h.counted⟩
  | requestStart => exact ⟨h.threshold_eq, h.state_eq, h.counted⟩
  | requestComplete success now =>
    cases success with
    | true => exact h.succeed hpos now
    | false => exact h.fail hpos hint now
  | markConnected => exact ⟨h.threshold_eq, (lawState_zero hpos true).symm, fun _ => rfl⟩

end Law

/-- **The law of the connection state.** With a threshold of at least 1 the connection is disconnected
until it is marked as connected; from then on it is degraded just when the failures since the last success
or the last mark have reached the threshold, and connected otherwise. -/
theorem connection_state_law (config : NatsResilienceConfig) (hpos : 1 ≤ config.degradedThreshold)
    (hint : config.degradedThreshold < 2 ^ 31) (past : List ResilienceRecord) (res : NatsResilience)
    (run : ResilienceRun config past res) :
    natsResilienceGetState (some res) =
      if !everConnected past then .disconnected
      else if config.degradedThreshold ≤ failuresSince past then .degraded
      else .connected := by
  have hlaw : FollowsLaw config.degradedThreshold past res := by
    refine run.invariant ?_ (fun _ _ call h => h.step hpos hint call)
    exact ⟨rfl, rfl, NatsConnectionState.noConfusion⟩
  exact hlaw.state_eq

/-- Two failures before the connection is up do not count; of the two after it the second degrades. -/
theorem connection_state_degraded :
    natsResilienceGetState (some (exec resilienceStep (natsResilienceInit (some ⟨1, 1, 8, 2, 0⟩))
      [.requestComplete false 5, .requestComplete false 6, .markConnected, .requestComplete false 7,
        .requestStart, .requestComplete false 8]).2) = .degraded := by
  rw [connection_state_law ⟨1, 1, 8, 2, 0⟩ (by decide) (by decide) _ _ (run_exec _ _ _)]
  decide

end CGateway
