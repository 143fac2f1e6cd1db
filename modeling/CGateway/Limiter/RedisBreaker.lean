import CGateway.Lib.Machine
import CGateway.Limiter.RedisRateLimiter

/-! # When the breaker of the Redis limiter opens

`cb_record_error`, `cb_record_success` and `cb_get_state` in any order. A closed breaker counts errors and
forgets them at a success, and at nothing else: `cb_sliding_window_sec` is configured and never read, so
that errors of any age open the breaker.

* `redisBreakerStep` — the three calls;
* `errorsSinceSuccess` — what a closed breaker has counted, read off the history;
* `opens_iff` — the errors that open a closed breaker;
* `sliding_window_iff` — the openings that a sliding window would have allowed. -/

namespace CGateway

open Machine

/-! ### The calls and their histories -/

/-- A call on the breaker, with its clock readings. -/
inductive RedisBreakerCall where
  | recordError (now openedNow : ℤ)
  | recordSuccess
  | getState (now : ℤ)
  deriving DecidableEq, Repr

/-- One call; `cb_get_state` answers the state. -/
def redisBreakerStep (st : RedisLimiter) : RedisBreakerCall → RedisLimiter × Option RedisCbState
  | .recordError now openedNow => (redisCbRecordError now openedNow st, none)
  | .recordSuccess => (redisCbRecordSuccess st, none)
  | .getState now => ((redisCbGetState now st).2, some (redisCbGetState now st).1)

/-- A step of a run, as the history keeps it. -/
abbrev RedisBreakerRecord := Record RedisLimiter RedisBreakerCall (Option RedisCbState)

/-- The clock readings of a call, the latest first. -/
def RedisBreakerCall.times : RedisBreakerCall → List ℤ
  | .recordError now openedNow => [openedNow, now]
  | .recordSuccess => []
  | .getState now => [now]

/-- The clock of a history does not go back. -/
def Chronological (past : List RedisBreakerRecord) : Prop :=
  (past.flatMap (·.input.times)).Pairwise (· ≥ ·)

/-- The call records an error at a time within `window` seconds of `now`. -/
def RedisBreakerCall.errorWithin (window now : ℤ) : RedisBreakerCall → Bool
  | .recordError time _ => now - time ≤ window
  | .recordSuccess | .getState _ => false

/-- The errors recorded within the last `window` seconds. -/
def errorsWithin (window now : ℤ) (past : List RedisBreakerRecord) : ℕ :=
  past.countP (·.input.errorWithin window now)

/-- The errors recorded since the last success. -/
def errorsSinceSuccess : List RedisBreakerRecord → ℕ
  | [] => 0
  | r :: past =>
      match r.input with
      | .recordError _ _ => errorsSinceSuccess past + 1
      | .recordSuccess => 0
      | .getState _ => errorsSinceSuccess past

/-- The step takes the breaker from CLOSED to OPEN. -/
def RedisBreakerRecord.Opens (r : RedisBreakerRecord) : Prop :=
  r.before.cb.state = .closed ∧ r.after.cb.state = .open

/-- When the breaker opens, at least as many errors as the threshold were recorded within the window. -/
def BurstsOnly (config : RedisLimiterConfig) (past : List RedisBreakerRecord) : Prop :=
  ∀ r earlier, r :: earlier <:+ past → r.Opens → ∀ now openedNow, r.input = .recordError now openedNow →
    config.cbErrorThreshold ≤ errorsWithin config.cbSlidingWindowSec now (r :: earlier)

/-- All errors since the last success were recorded within the last `window` seconds. -/
def StreakWithin (window now : ℤ) : List RedisBreakerRecord → Prop
  | [] => True
  | r :: past =>
      match r.input with
      | .recordError time _ => now - time ≤ window ∧ StreakWithin window now past
      | .recordSuccess => True
      | .getState _ => StreakWithin window now past

/-- Whenever the breaker opens, all errors since the last success are within the window. -/
def StreaksWithin (config : RedisLimiterConfig) (past : List RedisBreakerRecord) : Prop :=
  ∀ r earlier, r :: earlier <:+ past → r.Opens → ∀ now openedNow, r.input = .recordError now openedNow →
    StreakWithin config.cbSlidingWindowSec now (r :: earlier)

/-! ### What a closed breaker has counted -/

section Counting

variable {config : RedisLimiterConfig} {past : List RedisBreakerRecord} {st st₀ : RedisLimiter}

/-- A closed breaker has counted the errors since the last success, and they are below the threshold. -/
structure ErrorsCounted (config : RedisLimiterConfig) (past : List RedisBreakerRecord)
    (st : RedisLimiter) : Prop where
  config_eq : st.config = config
  counted : st.cb.state = .closed → st.cb.errorCount = errorsSinceSuccess past
  below : st.cb.state = .closed → st.cb.errorCount = 0 ∨ st.cb.errorCount < config.cbErrorThreshold

/-- An error keeps the configuration; it opens a closed breaker at the threshold and counts otherwise. -/
theorem redisCbRecordError_closed (now openedNow : ℤ) (hclosed : st.cb.state = .closed) :
    redisCbRecordError now openedNow st =
      if st.config.cbErrorThreshold ≤ (st.cb.errorCount + 1 : ℕ) then
        { st with cb := { st.cb with
            state := .open, errorCount := st.cb.errorCount + 1, lastErrorTime := now, openedAt := openedNow } }
      else
        { st with cb := { st.cb with errorCount := st.cb.errorCount + 1, lastErrorTime := now } } := by
  simp only [redisCbRecordError, hclosed]

/-- An error leaves a breaker that was not closed open. -/
theorem redisCbRecordError_not_closed (now openedNow : ℤ) (h : st.cb.state ≠ .closed) :
    (redisCbRecordError now openedNow st).config = st.config ∧
      (redisCbRecordError now openedNow st).cb.state = .open := by
  rw [redisCbRecordError]
  cases hstate : st.cb.state with
  | closed => exact absurd hstate h
  | halfOpen => exact ⟨rfl, rfl⟩
  | «open» => exact ⟨rfl, hstate⟩

/-- A breaker that is not closed has nothing to count. -/
theorem ErrorsCounted.of_not_closed (hconfig : st.config = config) (h : st.cb.state ≠ .closed) :
    ErrorsCounted config past st :=
  ⟨hconfig, fun hc => absurd hc h, fun hc => absurd hc h⟩

/-- An error keeps the count right. -/
theorem ErrorsCounted.recordError (h : ErrorsCounted config past st) (now openedNow : ℤ) :
    ErrorsCounted config (recordOf redisBreakerStep st (.recordError now openedNow) :: past)
      (redisCbRecordError now openedNow st) := by
  by_cases hclosed : st.cb.state = .closed
  · have hcount := h.counted hclosed
    rw [redisCbRecordError_closed now openedNow hclosed]
    split
    · exact .of_not_closed h.config_eq RedisCbState.noConfusion
    · next hbelow =>
        rw [h.config_eq] at hbelow
        refine ⟨h.config_eq, fun _ => ?_, fun _ => .inr (Int.not_le.mp hbelow)⟩
        show st.cb.errorCount + 1 = errorsSinceSuccess past + 1
        rw [hcount]
  · obtain ⟨hconfig, hopen⟩ := redisCbRecordError_not_closed now openedNow hclosed
    refine .of_not_closed (hconfig.trans h.config_eq) ?_
    rw [hopen]
    exact RedisCbState.noConfusion

/-- A success keeps it right: a breaker that is closed after it has nothing counted. -/
theorem ErrorsCounted.recordSuccess (h : ErrorsCounted config past st) :
    ErrorsCounted config (recordOf redisBreakerStep st .recordSuccess :: past)
      (redisCbRecordSuccess st) := by
  rw [redisCbRecordSuccess]
  cases hstate : st.cb.state with
  | closed => exact ⟨h.config_eq, fun _ => rfl, fun _ => .inl rfl⟩
  | «open» =>
    refine .of_not_closed h.config_eq ?_
    rw [hstate]
    exact RedisCbState.noConfusion
  | halfOpen =>
    simp only
    split
    · exact ⟨h.config_eq, fun _ => rfl, fun _ => .inl rfl⟩
    · refine .of_not_closed h.config_eq ?_
      rw [hstate]
      exact RedisCbState.noConfusion

/-- Asking for the state keeps it right. -/
theorem ErrorsCounted.getState (h : ErrorsCounted config past st) (now : ℤ) :
    ErrorsCounted config (recordOf redisBreakerStep st (.getState now) :: past)
      (redisCbGetState now st).2 := by
  rw [redisCbGetState]
  split
  · exact .of_not_closed h.config_eq RedisCbState.noConfusion
  · exact ⟨h.config_eq, h.counted, h.below⟩

/-- **A step keeps the count right.** -/
theorem ErrorsCounted.step (h : ErrorsCounted config past st) (call : RedisBreakerCall) :
    ErrorsCounted config (recordOf redisBreakerStep st call :: past)
      (redisBreakerStep st call).1 := by
  cases call with
  | recordError now openedNow => exact h.recordError now openedNow
  | recordSuccess => exact h.recordSuccess
  | getState now => exact h.getState now

/-- A limiter that is initialised has this configuration and a closed breaker without errors. -/
theorem redisRateLimiterInit_eq (hinit : redisRateLimiterInit config = some st₀) :
    st₀ = ⟨config, ⟨.closed, 0, 0, 0, 0, 0⟩⟩ := by
  rw [redisRateLimiterInit] at hinit
  split at hinit
  · exact (Option.some.inj hinit).symm
  · exact absurd hinit nofun

/-- A closed breaker counts the errors since the last success, in every run. -/
theorem errorsCounted_of_run (hinit : redisRateLimiterInit config = some st₀)
    (run : Run redisBreakerStep st₀ past st) : ErrorsCounted config past st := by
  refine run.invariant ?_ (fun _ _ call h => h.step call)
  rw [redisRateLimiterInit_eq hinit]
  exact ⟨rfl, fun _ => rfl, fun _ => .inl rfl⟩

/-- **What opens a closed breaker.** An error, when the errors since the last success have reached the
threshold with it; their times do not matter. -/
theorem opens_iff (h : ErrorsCounted config past st) (hclosed : st.cb.state = .closed) (call : RedisBreakerCall) :
    (redisBreakerStep st call).1.cb.state = .open ↔
      (∃ now openedNow, call = .recordError now openedNow) ∧
        config.cbErrorThreshold ≤ (errorsSinceSuccess past + 1 : ℕ) := by
  cases call with
  | recordError now openedNow =>
    simp only [redisBreakerStep, redisCbRecordError_closed now openedNow hclosed, h.config_eq, h.counted hclosed]
    split
    · next hreached => exact iff_of_true rfl ⟨⟨_, _, rfl⟩, hreached⟩
    · next hbelow =>
        exact iff_of_false (by rw [hclosed]; exact RedisCbState.noConfusion)
          (fun hboth => hbelow hboth.2)
  | recordSuccess =>
    simp [redisBreakerStep, redisCbRecordSuccess, hclosed]
  | getState now =>
    simp [redisBreakerStep, redisCbGetState, hclosed]

end Counting

/-! ### Errors and the window -/

section Window

variable {window now : ℤ} {past : List RedisBreakerRecord} {r : RedisBreakerRecord}

theorem errorsWithin_cons (window now : ℤ) (r : RedisBreakerRecord) (past : List RedisBreakerRecord) :
    errorsWithin window now (r :: past) = errorsWithin window now past + (r.input.errorWithin window now).toNat := by
  rw [errorsWithin, List.countP_cons, errorsWithin]
  cases r.input.errorWithin window now <;> rfl

/-- An earlier part of a history is chronological too. -/
theorem Chronological.of_suffix {earlier : List RedisBreakerRecord} (h : Chronological past)
    (hsuffix : earlier <:+ past) : Chronological earlier := by
  obtain ⟨later, rfl⟩ := hsuffix
  rw [Chronological, List.flatMap_append, List.pairwise_append] at h
  exact h.2.1

/-- No error before an error outside the window is inside it. -/
theorem errorsWithin_eq_zero (h : Chronological (r :: past)) {time openedNow : ℤ}
    (hinput : r.input = .recordError time openedNow) (hold : ¬ now - time ≤ window) :
    errorsWithin window now past = 0 := by
  rw [Chronological, List.flatMap_cons, List.pairwise_append, hinput] at h
  rw [errorsWithin, List.countP_eq_zero]
  intro q hq
  cases hcall : q.input with
  | recordSuccess => simp [RedisBreakerCall.errorWithin]
  | getState _ => simp [RedisBreakerCall.errorWithin]
  | recordError earlierTime earlierOpened =>
    have hle : time ≥ earlierTime := by
      refine h.2.2 time (by simp [RedisBreakerCall.times]) earlierTime ?_
      refine List.mem_flatMap.mpr ⟨q, hq, ?_⟩
      simp [hcall, RedisBreakerCall.times]
    simp only [RedisBreakerCall.errorWithin, decide_eq_true_eq]
    omega

/-- A streak within the window is counted there whole. -/
theorem le_errorsWithin_of_streakWithin (h : StreakWithin window now past) :
    errorsSinceSuccess past ≤ errorsWithin window now past := by
  induction past with
  | nil => exact le_rfl
  | cons r past ih =>
    rw [errorsWithin_cons]
    cases hcall : r.input with
    | recordSuccess => simp [errorsSinceSuccess, hcall]
    | getState _ =>
      simp only [StreakWithin, hcall] at h
      simpa [errorsSinceSuccess, hcall, RedisBreakerCall.errorWithin] using ih h
    | recordError time _ =>
      simp only [StreakWithin, hcall] at h
      have hrest := ih h.2
      simp only [errorsSinceSuccess, hcall, RedisBreakerCall.errorWithin, h.1, decide_true, Bool.toNat_true]
      omega

/-- A streak that began before the window is not: what is older than one of its errors is outside too. -/
theorem errorsWithin_lt_of_not_streakWithin (hchrono : Chronological past) (h : ¬ StreakWithin window now past) :
    errorsWithin window now past < errorsSinceSuccess past := by
  induction past with
  | nil => exact absurd trivial h
  | cons r past ih =>
    have hrest := ih (hchrono.of_suffix (List.suffix_cons ..))
    rw [errorsWithin_cons]
    cases hcall : r.input with
    | recordSuccess =>
      simp only [StreakWithin, hcall, not_true_eq_false] at h
    | getState _ =>
      simp only [StreakWithin, hcall] at h
      simpa [errorsSinceSuccess, hcall, RedisBreakerCall.errorWithin] using hrest h
    | recordError time _ =>
      simp only [StreakWithin, hcall, not_and] at h
      simp only [errorsSinceSuccess, hcall, RedisBreakerCall.errorWithin]
      by_cases hin : now - time ≤ window
      · have := hrest (h hin)
        simp only [hin, decide_true, Bool.toNat_true]
        omega
      · rw [errorsWithin_eq_zero hchrono hcall hin]
        simp [hin]

/-- **The window and the streak.** The window holds as many errors as the streak has just when it holds
the whole streak. -/
theorem le_errorsWithin_iff (hchrono : Chronological past) :
    errorsSinceSuccess past ≤ errorsWithin window now past ↔ StreakWithin window now past := by
  refine ⟨fun hle => ?_, le_errorsWithin_of_streakWithin⟩
  by_contra hnot
  have := errorsWithin_lt_of_not_streakWithin hchrono hnot
  omega

end Window

/-! ### Openings -/

section Openings

variable {config : RedisLimiterConfig} {past earlier : List RedisBreakerRecord}
  {st st₀ : RedisLimiter} {r : RedisBreakerRecord}

/-- At an opening the streak is as long as the threshold, or the threshold is not positive. -/
theorem errorsSinceSuccess_of_opens (hinit : redisRateLimiterInit config = some st₀)
    (run : Run redisBreakerStep st₀ past st) (hsuffix : r :: earlier <:+ past) (hopens : r.Opens) :
    config.cbErrorThreshold ≤ 0 ∨ (errorsSinceSuccess (r :: earlier) : ℤ) = config.cbErrorThreshold := by
  obtain ⟨hrun, hr⟩ := run.of_suffix hsuffix
  have hcounted := errorsCounted_of_run hinit hrun
  have hafter : (redisBreakerStep r.before r.input).1.cb.state = .open := by
    have := hopens.2
    rw [hr] at this
    exact this
  obtain ⟨⟨now, openedNow, hinput⟩, hreached⟩ := (opens_iff hcounted hopens.1 r.input).mp hafter
  have hstreak : errorsSinceSuccess (r :: earlier) = errorsSinceSuccess earlier + 1 := by
    simp only [errorsSinceSuccess, hinput]
  have hbelow := hcounted.below hopens.1
  rw [hcounted.counted hopens.1] at hbelow
  omega

/-- **An opening and the window.** The window holds as many errors as the threshold asks for just when it
holds all errors since the last success. -/
theorem burst_iff (hinit : redisRateLimiterInit config = some st₀)
    (run : Run redisBreakerStep st₀ past st) (hchrono : Chronological past)
    (hsuffix : r :: earlier <:+ past) (hopens : r.Opens) (now : ℤ) (hpos : 0 < config.cbErrorThreshold) :
    config.cbErrorThreshold ≤ errorsWithin config.cbSlidingWindowSec now (r :: earlier) ↔
      StreakWithin config.cbSlidingWindowSec now (r :: earlier) := by
  rw [← le_errorsWithin_iff (hchrono.of_suffix hsuffix)]
  have hlength := errorsSinceSuccess_of_opens hinit run hsuffix hopens
  omega

/-- Where the threshold is not positive every opening counts as a burst. -/
theorem burstsOnly_of_nonpos (h : config.cbErrorThreshold ≤ 0) : BurstsOnly config past := by
  intro r earlier _ _ now _ _
  omega

/-- Where one error is enough it is a burst itself, if the window is not negative. -/
theorem burstsOnly_of_one (hone : config.cbErrorThreshold = 1)
    (hwindow : 0 ≤ config.cbSlidingWindowSec) : BurstsOnly config past := by
  intro r earlier _ _ now openedNow hinput
  rw [errorsWithin_cons, hinput, hone]
  simp [RedisBreakerCall.errorWithin, hwindow]

/-- Errors alone keep the breaker closed while they are below the threshold. -/
theorem exists_run_errors (hinit : redisRateLimiterInit config = some st₀) (calls : List RedisBreakerCall)
    (herrors : ∀ call ∈ calls, ∃ now openedNow, call = .recordError now openedNow)
    (hbelow : (calls.length : ℤ) < config.cbErrorThreshold) :
    ∃ past st, Run redisBreakerStep st₀ past st ∧ st.cb.state = .closed ∧
      past.map (·.input) = calls ∧ errorsSinceSuccess past = calls.length := by
  induction calls with
  | nil =>
    refine ⟨[], st₀, .start, ?_, rfl, rfl⟩
    rw [redisRateLimiterInit_eq hinit]
  | cons call calls ih =>
    rw [List.forall_mem_cons] at herrors
    rw [List.length_cons] at hbelow
    obtain ⟨past, st, run, hclosed, hinputs, hcount⟩ := ih herrors.2 (by omega)
    obtain ⟨⟨now, openedNow, rfl⟩, -⟩ := herrors
    have hcounted := errorsCounted_of_run hinit run
    refine ⟨_, _, run.next (.recordError now openedNow), ?_, ?_, ?_⟩
    · show (redisCbRecordError now openedNow st).cb.state = .closed
      rw [redisCbRecordError_closed now openedNow hclosed, hcounted.config_eq,
        hcounted.counted hclosed, hcount, if_neg (by omega)]
      exact hclosed
    · rw [List.map_cons, hinputs]
      rfl
    · show errorsSinceSuccess past + 1 = _
      rw [hcount]
      rfl

/-- **Errors of any age open the breaker.** Any calls that record as many errors as the threshold, with no
success between them, take it from CLOSED to OPEN at the last one. -/
theorem exists_run_opens (hinit : redisRateLimiterInit config = some st₀) (now openedNow : ℤ)
    (calls : List RedisBreakerCall) (herrors : ∀ call ∈ calls, ∃ now openedNow, call = .recordError now openedNow)
    (hlength : (calls.length : ℤ) + 1 = config.cbErrorThreshold) :
    ∃ (r : RedisBreakerRecord) (past : List RedisBreakerRecord) (st : RedisLimiter),
      Run redisBreakerStep st₀ (r :: past) st ∧ r.Opens ∧
      r.input = .recordError now openedNow ∧ past.map (·.input) = calls := by
  obtain ⟨past, st, run, hclosed, hinputs, hcount⟩ := exists_run_errors hinit calls herrors (by omega)
  refine ⟨_, past, _, run.next (.recordError now openedNow), ⟨hclosed, ?_⟩, rfl, hinputs⟩
  refine (opens_iff (errorsCounted_of_run hinit run) hclosed _).mpr ⟨⟨now, openedNow, rfl⟩, ?_⟩
  omega

/-- A history is chronological by its inputs alone. -/
theorem chronological_iff_inputs :
    Chronological past ↔ ((past.map (·.input)).flatMap RedisBreakerCall.times).Pairwise (· ≥ ·) := by
  rw [Chronological, List.flatMap_map]

/-- The errors in a window are counted by the inputs alone. -/
theorem errorsWithin_eq_countP (window now : ℤ) :
    errorsWithin window now past = (past.map (·.input)).countP (·.errorWithin window now) := by
  rw [errorsWithin, List.countP_map]
  rfl

/-- Two readings after any number of readings of 0. -/
theorem chronological_replicate (n : ℕ) {late : ℤ} (h : 0 ≤ late) :
    (RedisBreakerCall.times (.recordError late late) ++
      (List.replicate n (RedisBreakerCall.recordError 0 0)).flatMap RedisBreakerCall.times).Pairwise
        (· ≥ ·) := by
  have hzero : ∀ t ∈ (List.replicate n (RedisBreakerCall.recordError 0 0)).flatMap
      RedisBreakerCall.times, t = 0 := by
    intro t ht
    obtain ⟨call, hcall, ht⟩ := List.mem_flatMap.mp ht
    rw [List.eq_of_mem_replicate hcall] at ht
    simpa [RedisBreakerCall.times] using ht
  rw [List.eq_replicate_of_mem hzero]
  simp [RedisBreakerCall.times, List.pairwise_cons, List.mem_replicate, List.pairwise_replicate, h]

/-- A threshold above 1, or 1 with a negative window: an old error and then the others open the breaker
with fewer errors in the window than the threshold. -/
theorem exists_not_burstsOnly (hinit : redisRateLimiterInit config = some st₀) (hpos : 0 < config.cbErrorThreshold)
    (hfails : 1 < config.cbErrorThreshold ∨ config.cbSlidingWindowSec < 0) :
    ∃ past st, Run redisBreakerStep st₀ past st ∧ Chronological past ∧ ¬ BurstsOnly config past := by
  -- the last error comes when the window has passed since all others
  let late := max config.cbSlidingWindowSec 0 + 1
  obtain ⟨r, past, st, run, hopens, hinput, hcalls⟩ := exists_run_opens hinit late late
    (List.replicate (config.cbErrorThreshold - 1).toNat (.recordError 0 0))
    (fun call hcall => ⟨0, 0, List.eq_of_mem_replicate hcall⟩)
    (by rw [List.length_replicate]; omega)
  refine ⟨r :: past, st, run, ?_, ?_⟩
  · rw [chronological_iff_inputs, List.map_cons, hinput, hcalls, List.flatMap_cons]
    exact chronological_replicate _ (by omega)
  · intro hbursts
    have hle := hbursts r past (List.suffix_refl _) hopens late late hinput
    rw [errorsWithin_cons, hinput, errorsWithin_eq_countP, hcalls, List.countP_replicate] at hle
    have hold : RedisBreakerCall.errorWithin config.cbSlidingWindowSec late (.recordError 0 0) = false := by
      simp only [RedisBreakerCall.errorWithin, decide_eq_false_iff_not]
      omega
    rw [hold] at hle
    simp only [RedisBreakerCall.errorWithin, Bool.false_eq_true, if_false] at hle
    rcases hfails with hmany | hneg
    · have := Bool.toNat_le (decide (late - late ≤ config.cbSlidingWindowSec))
      omega
    · rw [decide_eq_false (by omega : ¬ late - late ≤ config.cbSlidingWindowSec)] at hle
      simp only [Bool.toNat_false] at hle
      omega

end Openings

/-- **Openings and the sliding window.** In a run with a clock that does not go back the breaker opened on
bursts only if and only if, at each opening, all errors since the last success were within the window (or
the threshold is not positive). A configuration has only such runs just when its threshold is not positive,
or 1 with a window that is not negative. -/
theorem sliding_window_iff (config : RedisLimiterConfig) (st₀ : RedisLimiter)
    (hinit : redisRateLimiterInit config = some st₀) :
    (∀ past st, Run redisBreakerStep st₀ past st → Chronological past →
      (BurstsOnly config past ↔ config.cbErrorThreshold ≤ 0 ∨ StreaksWithin config past)) ∧
    ((∀ past st, Run redisBreakerStep st₀ past st → Chronological past → BurstsOnly config past) ↔
      config.cbErrorThreshold ≤ 0 ∨
        config.cbErrorThreshold = 1 ∧ 0 ≤ config.cbSlidingWindowSec) := by
  refine ⟨?_, ?_, ?_⟩
  · intro past st run hchrono
    by_cases hpos : 0 < config.cbErrorThreshold
    · rw [or_iff_right (by omega)]
      constructor
      · intro hbursts r earlier hsuffix hopens now openedNow hinput
        exact (burst_iff hinit run hchrono hsuffix hopens now hpos).mp
          (hbursts r earlier hsuffix hopens now openedNow hinput)
      · intro hstreaks r earlier hsuffix hopens now openedNow hinput
        exact (burst_iff hinit run hchrono hsuffix hopens now hpos).mpr
          (hstreaks r earlier hsuffix hopens now openedNow hinput)
    · exact iff_of_true (burstsOnly_of_nonpos (by omega)) (.inl (by omega))
  · intro hall
    by_contra hnot
    obtain ⟨past, st, run, hchrono, hfails⟩ := exists_not_burstsOnly hinit (by omega) (by omega)
    exact hfails (hall past st run hchrono)
  · rintro (hnonpos | ⟨hone, hwindow⟩) past st _ _
    · exact burstsOnly_of_nonpos hnonpos
    · exact burstsOnly_of_one hone hwindow

/-- A limiter that opens at the second error, with a window of 30 seconds. -/
def twoErrorConfig : RedisLimiterConfig where
  enabled := true
  globalLimit := 1000
  poolSize := 32
  cbFailOpen := false
  cbErrorThreshold := 2
  cbSlidingWindowSec := 30
  cbCooldownSec := 15
  cbHalfOpenAttempts := 2

/-- The limiter with it, as it starts. -/
def twoErrorLimiter : RedisLimiter := ⟨twoErrorConfig, ⟨.closed, 0, 0, 0, 0, 0⟩⟩

/-- Two errors ten seconds apart open the breaker, and both are within the window. -/
theorem sliding_window_burst :
    BurstsOnly twoErrorConfig
      (exec redisBreakerStep twoErrorLimiter [.recordError 0 0, .recordError 10 10]).1 := by
  refine ((sliding_window_iff twoErrorConfig twoErrorLimiter rfl).1 _ _ (run_exec _ _ _) ?_).mpr
    (.inr ?_)
  · show List.Pairwise (· ≥ ·) [10, 10, 0, 0]
    decide
  · intro r earlier hsuffix hopens now openedNow hinput
    rcases List.suffix_cons_iff.mp hsuffix with heq | hsuffix
    · obtain ⟨rfl, rfl⟩ := List.cons.inj heq
      obtain ⟨rfl, rfl⟩ := RedisBreakerCall.recordError.inj hinput
      show (10 : ℤ) - 10 ≤ 30 ∧ (10 : ℤ) - 0 ≤ 30 ∧ True
      decide
    · rcases List.suffix_cons_iff.mp hsuffix with heq | hsuffix
      · obtain ⟨rfl, -⟩ := List.cons.inj heq
        exact absurd hopens.2 (by decide)
      · cases List.suffix_nil.mp hsuffix

/-- Two errors a thousand seconds apart open it as well: of the two that the threshold asks for, the
window of 30 seconds holds one. -/
theorem sliding_window_ignored :
    let past := (exec redisBreakerStep twoErrorLimiter [.recordError 0 0, .recordError 1000 1000]).1
    redisRateLimiterInit twoErrorConfig = some twoErrorLimiter ∧
      Run redisBreakerStep twoErrorLimiter past
        (exec redisBreakerStep twoErrorLimiter [.recordError 0 0, .recordError 1000 1000]).2 ∧
      Chronological past ∧ errorsWithin 30 1000 past = 1 ∧ ¬ BurstsOnly twoErrorConfig past := by
  refine ⟨rfl, run_exec _ _ _, ?_, rfl, ?_⟩
  · show List.Pairwise (· ≥ ·) [1000, 1000, 0, 0]
    decide
  · intro hbursts
    have hle := hbursts _ _ (List.suffix_refl _) ⟨rfl, rfl⟩ 1000 1000 rfl
    exact absurd hle (by decide)

end CGateway
