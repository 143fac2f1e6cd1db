import CGateway.Nats.Resilience

/-! # The backoff of the NATS connection

A failed completion doubles the backoff and caps it then, so the doubled value leaves the range of `int` when the
backoff is `2 ^ 30` or more. The backoff goes back to its minimum when the connection is marked as connected, and
on a success that ends a degraded period; on any other success it stays as it is.

* `nextBackoff_eq_min` / `nextBackoff_overflow` — one doubling, below `2 ^ 30` and from there on;
* `backoff_in_range_iff` — which configurations keep the backoff between its bounds in every run;
* `doublingsSince` — the failures since the backoff was last reset;
* `backoff_follows_failures_iff` — when the backoff is the one that the failures in a row call for. -/

namespace CGateway

open Machine

/-! ### One failure -/

section Doubling

variable {config : NatsResilienceConfig} {backoff : ℤ}

/-- Below `2 ^ 30` a failure doubles the backoff up to the maximum. -/
theorem nextBackoff_eq_min (h₀ : 0 ≤ backoff) (h : backoff < 2 ^ 30) :
    nextBackoff config backoff = min config.maxBackoffMs (backoff * 2) := by
  have hsmall : (backoff * 2).bmod (2 ^ 32) = backoff * 2 := Int.bmod_eq_of_le (by omega) (by omega)
  rw [nextBackoff, hsmall]
  split <;> omega

/-- From `2 ^ 30` on the doubled value is negative, and no maximum brings it back. -/
theorem nextBackoff_overflow (hmax : 0 ≤ config.maxBackoffMs) (h : 2 ^ 30 ≤ backoff)
    (hint : backoff < 2 ^ 31) : nextBackoff config backoff = backoff * 2 - 2 ^ 32 := by
  have hwrap : (backoff * 2).bmod (2 ^ 32) = backoff * 2 - 2 ^ 32 := by
    rw [Int.bmod_def]
    split <;> omega
  rw [nextBackoff, hwrap]
  split <;> omega

/-- What a call does to the backoff. -/
theorem resilienceStep_backoff (res : NatsResilience) (call : ResilienceCall) :
    (resilienceStep res call).1.currentBackoffMs =
      match call with
      | .canAccept | .requestStart => res.currentBackoffMs
      | .requestComplete true _ =>
        if res.state = .degraded then res.config.minBackoffMs else res.currentBackoffMs
      | .requestComplete false _ => nextBackoff res.config res.currentBackoffMs
      | .markConnected => res.config.minBackoffMs := by
  cases call with
  | canAccept => rfl
  | requestStart => rfl
  | markConnected => rfl
  | requestComplete success now =>
    cases success with
    | false => rfl
    | true =>
      show res.leave.succeed.currentBackoffMs = _
      rw [NatsResilience.succeed]
      split <;> rename_i hstate
      · exact (if_pos hstate).symm
      · exact (if_neg hstate).symm

end Doubling

/-- A configuration with bounds that `nats_resilience_init` takes as they are. -/
structure HasBackoffBounds (config : NatsResilienceConfig) : Prop where
  min_pos : 0 < config.minBackoffMs
  min_le_max : config.minBackoffMs ≤ config.maxBackoffMs

section Bounds

variable {config : NatsResilienceConfig} {past : List ResilienceRecord} {res : NatsResilience}

/-- The bounds of such a configuration are not corrected. -/
theorem HasBackoffBounds.validated (h : HasBackoffBounds config) :
    config.validated.minBackoffMs = config.minBackoffMs ∧ config.validated.maxBackoffMs = config.maxBackoffMs := by
  have hmin := h.min_pos
  have hmax := h.min_le_max
  exact ⟨if_neg (by omega), if_neg (by omega)⟩

/-- So the corrected configuration has the same bounds. -/
theorem HasBackoffBounds.of_validated (h : HasBackoffBounds config) : HasBackoffBounds config.validated := by
  obtain ⟨hmin, hmax⟩ := h.validated
  refine ⟨?_, ?_⟩
  · rw [hmin]
    exact h.min_pos
  · rw [hmin, hmax]
    exact h.min_le_max

/-- A run keeps the configuration it started with. -/
theorem ResilienceRun.config_eq (run : ResilienceRun config past res) : res.config = config.validated := by
  refine run.invariant (P := fun _ res => res.config = config.validated) rfl ?_
  intro _ s call h
  rw [resilienceStep_config, h]

/-! ### The range -/

/-- With a maximum below `2 ^ 30` every call keeps the backoff between its bounds. -/
theorem resilienceStep_backoff_in_range (h : HasBackoffBounds res.config) (hmax : res.config.maxBackoffMs < 2 ^ 30)
    (hrange : res.config.minBackoffMs ≤ res.currentBackoffMs ∧ res.currentBackoffMs ≤ res.config.maxBackoffMs)
    (call : ResilienceCall) : res.config.minBackoffMs ≤ (resilienceStep res call).1.currentBackoffMs ∧
      (resilienceStep res call).1.currentBackoffMs ≤ res.config.maxBackoffMs := by
  have hreset : res.config.minBackoffMs ≤ res.config.minBackoffMs ∧
      res.config.minBackoffMs ≤ res.config.maxBackoffMs := ⟨le_refl _, h.min_le_max⟩
  rw [resilienceStep_backoff]
  cases call with
  | canAccept => exact hrange
  | requestStart => exact hrange
  | markConnected => exact hreset
  | requestComplete success now =>
    cases success with
    | true =>
      dsimp only
      split
      · exact hreset
      · exact hrange
    | false =>
      have hpos := h.min_pos
      have hle := h.min_le_max
      obtain ⟨hlow, hhigh⟩ := hrange
      dsimp only
      rw [nextBackoff_eq_min (by omega) (by omega)]
      exact ⟨le_min hle (by omega), min_le_left _ _⟩

/-- Failures only. -/
abbrev failures (n : ℕ) : List ResilienceCall := List.replicate n (.requestComplete false 0)

/-- The connection after failures only. -/
abbrev afterFailures (config : NatsResilienceConfig) (n : ℕ) : NatsResilience :=
  (exec resilienceStep (natsResilienceInit (some config)) (failures n)).2

/-- One more failure. -/
theorem afterFailures_succ (config : NatsResilienceConfig) (n : ℕ) :
    (afterFailures config (n + 1)).currentBackoffMs =
      nextBackoff config.validated (afterFailures config n).currentBackoffMs := by
  have hconfig : (afterFailures config n).config = config.validated := ResilienceRun.config_eq (run_exec _ _ _)
  rw [afterFailures, failures, List.replicate_succ', exec_concat]
  show nextBackoff (afterFailures config n).config (afterFailures config n).currentBackoffMs = _
  rw [hconfig]

/-- A backoff that stays between its bounds through failures only, with a maximum of `2 ^ 30` or more, never
reaches its maximum: it would not survive the failure behind. -/
theorem afterFailures_eq_of_in_range (h : HasBackoffBounds config) (hmax : 2 ^ 30 ≤ config.maxBackoffMs)
    (hint : config.maxBackoffMs ≤ 2 ^ 31 - 1)
    (hrange : ∀ n, config.minBackoffMs ≤ (afterFailures config n).currentBackoffMs ∧
      (afterFailures config n).currentBackoffMs ≤ config.maxBackoffMs) (n : ℕ) :
    (afterFailures config n).currentBackoffMs = config.minBackoffMs * 2 ^ n := by
  obtain ⟨hmin, hmax'⟩ := h.validated
  have hpos := h.min_pos
  have hbelow : ∀ n, (afterFailures config n).currentBackoffMs < 2 ^ 30 := by
    intro n
    by_contra hreached
    obtain ⟨_, hhigh⟩ := hrange n
    obtain ⟨hlow, _⟩ := hrange (n + 1)
    rw [afterFailures_succ, nextBackoff_overflow (by omega) (by omega) (by omega)] at hlow
    omega
  induction n with
  | zero =>
    show config.validated.minBackoffMs = _
    rw [hmin, pow_zero, mul_one]
  | succ n ih =>
    obtain ⟨hlow, _⟩ := hrange n
    have hnext := hbelow (n + 1)
    rw [afterFailures_succ, nextBackoff_eq_min (by omega) (hbelow n), hmax'] at hnext ⊢
    rw [min_eq_right (by omega), ih, pow_succ, mul_assoc]

/-- **The range of the backoff.** Among the configurations with a positive minimum that is not above the maximum,
those that keep the backoff between its bounds in every run are the ones with a maximum below `2 ^ 30`. -/
theorem backoff_in_range_iff (config : NatsResilienceConfig) (hmin : 0 < config.minBackoffMs)
    (hle : config.minBackoffMs ≤ config.maxBackoffMs) (hint : config.maxBackoffMs ≤ 2 ^ 31 - 1) :
    (∀ past res, ResilienceRun config past res →
      config.minBackoffMs ≤ res.currentBackoffMs ∧ res.currentBackoffMs ≤ config.maxBackoffMs) ↔
    config.maxBackoffMs < 2 ^ 30 := by
  have hbounds : HasBackoffBounds config := ⟨hmin, hle⟩
  obtain ⟨hvmin, hvmax⟩ := hbounds.validated
  constructor
  · intro hall
    by_contra hreached
    have hrange := fun n => hall _ (afterFailures config n) (run_exec _ _ _)
    -- thirty doublings of a positive number reach `2 ^ 30`, the thirty-first passes every maximum
    have hlast := afterFailures_eq_of_in_range hbounds (by omega) hint hrange 31
    obtain ⟨_, hhigh⟩ := hrange 31
    omega
  · intro hmax past res run
    induction run with
    | start => exact ⟨hvmin.ge, hvmin.le.trans hle⟩
    | @next past s run call ih =>
        have hrange := @resilienceStep_backoff_in_range s
        rw [ResilienceRun.config_eq run, hvmin, hvmax] at hrange
        exact hrange hbounds.of_validated hmax ih call

/-- The configuration without one stays between 100 ms and 30 s. -/
theorem backoff_in_range_default :
    NatsResilienceConfig.default.maxBackoffMs < 2 ^ 30 ∧
      ∀ past res, ResilienceRun .default past res → 100 ≤ res.currentBackoffMs ∧ res.currentBackoffMs ≤ 30000 :=
  ⟨by decide, (backoff_in_range_iff .default (by decide) (by decide) (by decide)).mpr (by decide)⟩

/-- With both bounds at `2 ^ 30` ms one failure leaves a negative backoff. -/
theorem backoff_in_range_overflow :
    (exec resilienceStep (natsResilienceInit (some ⟨100, 2 ^ 30, 2 ^ 30, 3, 0⟩))
      [.requestComplete false 0]).2.currentBackoffMs = -2 ^ 31 := by
  decide

end Bounds

/-! ### The failures in a row -/

/-- The failed completions since the backoff was last set to its minimum: by `nats_resilience_mark_connected`,
or by a success in a degraded state. -/
def doublingsSince : List ResilienceRecord → ℕ
  | [] => 0
  | r :: past =>
      match r.input with
      | .canAccept | .requestStart => doublingsSince past
      | .requestComplete true _ => if r.before.state = .degraded then 0 else doublingsSince past
      | .requestComplete false _ => doublingsSince past + 1
      | .markConnected => 0

/-- The failures in a row are among those since the last reset. -/
theorem failuresSince_le_doublingsSince (past : List ResilienceRecord) : failuresSince past ≤ doublingsSince past := by
  induction past with
  | nil => exact Nat.le_refl 0
  | cons r past ih =>
    rw [failuresSince, doublingsSince]
    cases r.input with
    | canAccept => exact ih
    | requestStart => exact ih
    | markConnected => exact Nat.le_refl 0
    | requestComplete success now =>
      cases success with
      | true => exact Nat.zero_le _
      | false => exact Nat.succ_le_succ ih

/-- The doublings since a reset have not wrapped: the maximum is below `2 ^ 30`, or was not reached before the last
of them. -/
def Unwrapped (minMs maxMs : ℤ) (doublings : ℕ) : Prop :=
  maxMs < 2 ^ 30 ∨ doublings = 0 ∨ minMs * 2 ^ (doublings - 1) < maxMs

/-- The backoff that doublings since a reset leave, for a maximum of at most `2 ^ 30`: once it has wrapped it is
not positive. -/
structure BackoffLaw (minMs maxMs : ℤ) (doublings : ℕ) (backoff : ℤ) : Prop where
  of_unwrapped : Unwrapped minMs maxMs doublings → backoff = min maxMs (minMs * 2 ^ doublings)
  of_wrapped : ¬Unwrapped minMs maxMs doublings → backoff = -2 ^ 31 ∨ backoff = 0

section Law

variable {config : NatsResilienceConfig} {doublings : ℕ} {backoff : ℤ}

/-- The law right after a reset. -/
theorem BackoffLaw.reset {minMs maxMs : ℤ} (hle : minMs ≤ maxMs) : BackoffLaw minMs maxMs 0 minMs := by
  refine ⟨fun _ => ?_, fun hwrapped => absurd (.inr (.inl rfl)) hwrapped⟩
  rw [pow_zero, mul_one, min_eq_right hle]

/-- What has not wrapped had not wrapped one doubling before. -/
theorem Unwrapped.of_succ {minMs maxMs : ℤ} (hmin : 0 < minMs) (h : Unwrapped minMs maxMs (doublings + 1)) :
    Unwrapped minMs maxMs doublings := by
  rcases h with hmax | hzero | hbelow
  · exact .inl hmax
  · cases hzero
  · cases doublings with
    | zero => exact .inr (.inl rfl)
    | succ n =>
      refine .inr (.inr (lt_of_le_of_lt ?_ hbelow))
      exact mul_le_mul_of_nonneg_left (pow_le_pow_right₀ one_le_two (Nat.le_succ n)) hmin.le

/-- A capped value doubled and capped again. -/
theorem min_min_mul_two {cap x : ℤ} (hcap : 0 ≤ cap) : min cap (min cap x * 2) = min cap (x * 2) := by
  omega

/-- A failure keeps the law. -/
theorem BackoffLaw.fail (h : HasBackoffBounds config) (hmax : config.maxBackoffMs ≤ 2 ^ 30)
    (law : BackoffLaw config.minBackoffMs config.maxBackoffMs doublings backoff) :
    BackoffLaw config.minBackoffMs config.maxBackoffMs (doublings + 1) (nextBackoff config backoff) := by
  have hmin := h.min_pos
  have hle := h.min_le_max
  have hpow : 0 < config.minBackoffMs * 2 ^ doublings := mul_pos hmin (pow_pos two_pos _)
  refine ⟨fun hunwrapped => ?_, fun hwrapped => ?_⟩
  · have hbackoff := law.of_unwrapped (hunwrapped.of_succ hmin)
    have hsmall : backoff < 2 ^ 30 := by
      rcases hunwrapped with hmax | hzero | hbelow
      · exact lt_of_le_of_lt (hbackoff ▸ min_le_left _ _) hmax
      · cases hzero
      · exact lt_of_le_of_lt (hbackoff ▸ min_le_right _ _) (lt_of_lt_of_le hbelow hmax)
    rw [nextBackoff_eq_min (hbackoff ▸ (lt_min (by omega) hpow).le) hsmall, hbackoff, min_min_mul_two (by omega),
      pow_succ, mul_assoc]
  · -- the maximum is `2 ^ 30` and was reached: the next doubling wraps, and from there it is zero
    have hreached : config.maxBackoffMs = 2 ^ 30 ∧ 2 ^ 30 ≤ config.minBackoffMs * 2 ^ doublings := by
      rw [Unwrapped, Nat.add_sub_cancel] at hwrapped
      omega
    by_cases hbefore : Unwrapped config.minBackoffMs config.maxBackoffMs doublings
    · have hbackoff := law.of_unwrapped hbefore
      rw [hreached.1, min_eq_left hreached.2] at hbackoff
      left
      rw [nextBackoff_overflow (by omega) hbackoff.ge (by omega), hbackoff]
      rfl
    · right
      rcases law.of_wrapped hbefore with hbackoff | hbackoff <;> subst hbackoff
      · exact if_neg (by rw [hreached.1]; decide)
      · exact if_neg (by rw [hreached.1]; decide)

/-- **The backoff since the last reset.** Every run keeps the law. -/
theorem ResilienceRun.backoffLaw (h : HasBackoffBounds config) (hmax : config.maxBackoffMs ≤ 2 ^ 30)
    {past : List ResilienceRecord} {res : NatsResilience} (run : ResilienceRun config past res) :
    BackoffLaw config.minBackoffMs config.maxBackoffMs (doublingsSince past) res.currentBackoffMs := by
  obtain ⟨hvmin, hvmax⟩ := h.validated
  have hreset := BackoffLaw.reset h.min_le_max
  induction run with
  | start => exact hvmin.symm ▸ hreset
  | @next past s run call law =>
    rw [resilienceStep_backoff, doublingsSince, ResilienceRun.config_eq run, hvmin]
    cases call with
    | canAccept => exact law
    | requestStart => exact law
    | markConnected => exact hreset
    | requestComplete success now =>
      cases success with
      | true =>
        -- a success resets the backoff in a degraded state only, and the doublings are counted alike
        show BackoffLaw _ _ (if s.state = .degraded then 0 else doublingsSince past)
          (if s.state = .degraded then config.minBackoffMs else s.currentBackoffMs)
        split
        · exact hreset
        · exact law
      | false =>
        have hnext := BackoffLaw.fail h.of_validated (hvmax.symm ▸ hmax) (hvmin.symm ▸ hvmax.symm ▸ law)
        rw [hvmin, hvmax] at hnext
        exact hnext

/-- Two capped powers are the same if the exponents are, or if the smaller power reaches the cap. -/
theorem min_mul_two_pow_eq_iff {cap x : ℤ} {j k : ℕ} (hx : 0 < x) (hkj : k ≤ j) :
    min cap (x * 2 ^ j) = min cap (x * 2 ^ k) ↔ j = k ∨ cap ≤ x * 2 ^ k := by
  constructor
  · intro heq
    rcases hkj.eq_or_lt with rfl | hlt
    · exact .inl rfl
    · have hpow : x * 2 ^ k < x * 2 ^ j := mul_lt_mul_of_pos_left (pow_lt_pow_right₀ one_lt_two hlt) hx
      right
      omega
  · rintro (rfl | hcap)
    · rfl
    · have hpow : x * 2 ^ k ≤ x * 2 ^ j := mul_le_mul_of_nonneg_left (pow_le_pow_right₀ one_le_two hkj) hx.le
      omega

/-- **The backoff and the failures in a row.** With a maximum of at most `2 ^ 30` ms the backoff is the minimum
doubled by each failure in a row, up to the maximum, just when two things hold: no doubling since the last reset
has wrapped, and no failure since that reset came before the failures in a row, unless those alone reach the
maximum. A success outside of a degraded period is no reset. -/
theorem backoff_follows_failures_iff (config : NatsResilienceConfig) (hmin : 0 < config.minBackoffMs)
    (hle : config.minBackoffMs ≤ config.maxBackoffMs) (hmax : config.maxBackoffMs ≤ 2 ^ 30)
    (past : List ResilienceRecord) (res : NatsResilience) (run : ResilienceRun config past res) :
    res.currentBackoffMs = min config.maxBackoffMs (config.minBackoffMs * 2 ^ failuresSince past) ↔
      (config.maxBackoffMs < 2 ^ 30 ∨ doublingsSince past = 0 ∨
        config.minBackoffMs * 2 ^ (doublingsSince past - 1) < config.maxBackoffMs) ∧
      (doublingsSince past = failuresSince past ∨
        config.maxBackoffMs ≤ config.minBackoffMs * 2 ^ failuresSince past) := by
  have law := run.backoffLaw ⟨hmin, hle⟩ hmax
  by_cases hunwrapped : Unwrapped config.minBackoffMs config.maxBackoffMs (doublingsSince past)
  · rw [law.of_unwrapped hunwrapped, min_mul_two_pow_eq_iff hmin (failuresSince_le_doublingsSince past)]
    exact (and_iff_right hunwrapped).symm
  · have hpow : 0 < config.minBackoffMs * 2 ^ failuresSince past := mul_pos hmin (pow_pos two_pos _)
    refine iff_of_false (fun heq => ?_) (fun hboth => hunwrapped hboth.1)
    rcases law.of_wrapped hunwrapped with hbackoff | hbackoff <;> omega

end Law

/-- Three failures of a connection that is up, at a threshold of 3: 100 ms doubled three times, and a success brings
the backoff back. -/
theorem backoff_follows_failures_degraded :
    let run := exec resilienceStep (natsResilienceInit (some .default))
    let failed : List ResilienceCall := [.markConnected, .requestComplete false 1, .requestComplete false 2,
      .requestComplete false 3]
    (run failed).2.currentBackoffMs = min 30000 (100 * 2 ^ failuresSince (run failed).1) ∧
      (run (failed ++ [.requestComplete true 4])).2.currentBackoffMs =
        min 30000 (100 * 2 ^ failuresSince (run (failed ++ [.requestComplete true 4])).1) := by
  exact ⟨(backoff_follows_failures_iff .default (by decide) (by decide) (by decide) _ _ (run_exec _ _ _)).mpr
      ⟨.inl (by decide), .inl (by decide)⟩,
    (backoff_follows_failures_iff .default (by decide) (by decide) (by decide) _ _ (run_exec _ _ _)).mpr
      ⟨.inl (by decide), .inl (by decide)⟩⟩

/-- One failure of a connection that is up, and a success: the connection was never degraded, and the backoff stays
at twice the minimum although no failure is left in a row. -/
theorem backoff_follows_failures_isolated :
    let run := exec resilienceStep (natsResilienceInit (some .default))
      [.markConnected, .requestComplete false 1, .requestComplete true 2]
    failuresSince run.1 = 0 ∧ run.2.currentBackoffMs = 200 ∧
      min 30000 (100 * 2 ^ failuresSince run.1) = (100 : ℤ) := by
  decide

end CGateway
