import CGateway.Limiter.RedisBreaker

/-! # The Redis limiter that fails closed

With `cb_fail_open` off an open breaker denies. The mode is asked in that one state: when the cooldown is
over, `cb_get_state` turns the breaker half-open, the check finds no connection, lets the request through,
and opens the breaker again. In the build without hiredis every check goes one of these ways.

* `redisCheckStep` — one call of `redis_rate_limiter_check`;
* `Verdict.step` — between two checks the breaker is closed or open, and open for good;
* `fail_closed_iff` — nothing is let through after the opening just as long as every check comes before
  the cooldown is over. -/

namespace CGateway

open Machine

/-! ### Checks and their histories -/

/-- One call of `redis_rate_limiter_check`: its clock readings and what `*result` holds before. -/
structure RedisCheck where
  clock : RedisLimiterClock
  stale : RedisLimiterResult

/-- One check. -/
def redisCheckStep (st : Option RedisLimiter) (check : RedisCheck) :
    Option RedisLimiter × RedisLimiterResult :=
  (redisRateLimiterCheck check.clock check.stale st).swap

/-- A check as the history keeps it. -/
abbrev RedisCheckRecord := Record (Option RedisLimiter) RedisCheck RedisLimiterResult

/-- The breaker is open. -/
def breakerOpen (st : Option RedisLimiter) : Bool := st.any (·.cb.state = .open)

/-- The breaker has been open after some check. -/
def HasOpened (past : List RedisCheckRecord) : Prop := ∃ r ∈ past, breakerOpen r.after = true

/-- The time at which the breaker was last opened: that of the last check that let its request through and
left the breaker open. -/
def lastOpening : List RedisCheckRecord → Option ℤ
  | [] => none
  | r :: past =>
      if r.output.decision = .allow ∧ breakerOpen r.after = true then some r.input.clock.opened
      else lastOpening past

/-- No check that came after an opening let its request through. -/
def StaysClosed (past : List RedisCheckRecord) : Prop :=
  ∀ r earlier, r :: earlier <:+ past → HasOpened earlier → r.output.decision ≠ .allow

/-- Every check that came after an opening came before its cooldown was over. -/
def WithinCooldown (config : RedisLimiterConfig) (past : List RedisCheckRecord) : Prop :=
  ∀ r earlier, r :: earlier <:+ past → HasOpened earlier →
    ∃ opening, lastOpening earlier = some opening ∧
      r.input.clock.state - opening < config.cbCooldownSec

/-! ### One check -/

section Check

variable {config : RedisLimiterConfig} {st : RedisLimiter}

/-- A closed breaker lets the request through and counts an error. -/
theorem redisCheckStep_closed (check : RedisCheck) (henabled : st.config.enabled = true)
    (hstate : st.cb.state = .closed) :
    (redisCheckStep (some st) check).2.decision = .allow ∧
      (redisCheckStep (some st) check).1 = some (redisCbRecordError check.clock.error check.clock.opened st) := by
  have hget : redisCbGetState check.clock.state st = (.closed, st) := by
    rw [redisCbGetState, hstate, if_neg (by simp)]
  simp [redisCheckStep, redisRateLimiterCheck, henabled, checkRateLimitRedis, hget]

/-- An open one denies and stays as it is before its cooldown is over. -/
theorem redisCheckStep_open {check : RedisCheck} (henabled : st.config.enabled = true)
    (hmode : st.config.cbFailOpen = false) (hstate : st.cb.state = .open)
    (hbefore : check.clock.state - st.cb.openedAt < st.config.cbCooldownSec) :
    (redisCheckStep (some st) check).2.decision = .deny ∧ (redisCheckStep (some st) check).1 = some st := by
  have hget : redisCbGetState check.clock.state st = (.open, st) := by
    rw [redisCbGetState, if_neg (by omega), hstate]
  simp [redisCheckStep, redisRateLimiterCheck, henabled, checkRateLimitRedis, hget, hmode]

/-- When the cooldown is over it lets the request through and opens again. -/
theorem redisCheckStep_cooled {check : RedisCheck} (henabled : st.config.enabled = true)
    (hstate : st.cb.state = .open) (hafter : st.config.cbCooldownSec ≤ check.clock.state - st.cb.openedAt) :
    (redisCheckStep (some st) check).2.decision = .allow ∧
      ∃ st', (redisCheckStep (some st) check).1 = some st' ∧ st'.config = st.config ∧
        st'.cb.state = .open ∧ st'.cb.openedAt = check.clock.opened := by
  have hget : redisCbGetState check.clock.state st =
      (.halfOpen, { st with cb := { st.cb with
        state := .halfOpen, halfOpenAttempts := 0, halfOpenSuccesses := 0 } }) := by
    rw [redisCbGetState, if_pos ⟨hstate, hafter⟩]
  simp only [redisCheckStep, redisRateLimiterCheck, henabled, if_true, checkRateLimitRedis, hget]
  exact ⟨rfl, _, rfl, rfl, rfl, rfl⟩

/-- An error on a closed breaker leaves it closed, or opens it now. -/
theorem redisCbRecordError_closed_cases (now openedNow : ℤ) (hstate : st.cb.state = .closed) :
    (redisCbRecordError now openedNow st).config = st.config ∧
      ((redisCbRecordError now openedNow st).cb.state = .closed ∨
        (redisCbRecordError now openedNow st).cb.state = .open ∧
          (redisCbRecordError now openedNow st).cb.openedAt = openedNow) := by
  rw [redisCbRecordError_closed now openedNow hstate]
  split
  · exact ⟨rfl, .inr ⟨rfl, rfl⟩⟩
  · exact ⟨rfl, .inl hstate⟩

end Check

/-! ### Runs of checks -/

/-- Between two checks the breaker is closed and has never been open, or it is open since the last
opening of the history. -/
inductive Verdict (config : RedisLimiterConfig) (past : List RedisCheckRecord) :
    Option RedisLimiter → Prop
  /-- The limiter could not be initialised. -/
  | absent (hnever : ¬ HasOpened past) : Verdict config past none
  | closed {st : RedisLimiter} (hconfig : st.config = config) (hstate : st.cb.state = .closed)
      (hnever : ¬ HasOpened past) : Verdict config past (some st)
  | opened {st : RedisLimiter} (hconfig : st.config = config) (hstate : st.cb.state = .open)
      (hlast : lastOpening past = some st.cb.openedAt) : Verdict config past (some st)

section Runs

variable {config : RedisLimiterConfig} {past : List RedisCheckRecord} {st : Option RedisLimiter}

/-- A check that does not leave the breaker open adds no opening. -/
theorem not_hasOpened_cons {r : RedisCheckRecord} (hnever : ¬ HasOpened past)
    (hafter : breakerOpen r.after = false) : ¬ HasOpened (r :: past) := by
  rintro ⟨q, hq, hopen⟩
  rcases List.mem_cons.mp hq with rfl | hq
  · rw [hafter] at hopen
    exact Bool.noConfusion hopen
  · exact hnever ⟨q, hq, hopen⟩

/-- A check that lets its request through and leaves the breaker open is the last opening. -/
theorem lastOpening_cons_allow {r : RedisCheckRecord} {st : RedisLimiter}
    (hallow : r.output.decision = .allow) (hafter : r.after = some st) (hopen : st.cb.state = .open) :
    lastOpening (r :: past) = some r.input.clock.opened := by
  refine if_pos ⟨hallow, ?_⟩
  rw [hafter]
  simp [breakerOpen, hopen]

/-- **A check keeps the breaker closed or open**, and open once it is. -/
theorem Verdict.step (henabled : config.enabled = true) (hmode : config.cbFailOpen = false)
    (h : Verdict config past st) (check : RedisCheck) :
    Verdict config (recordOf redisCheckStep st check :: past) (redisCheckStep st check).1 := by
  cases h with
  | absent hnever => exact .absent (not_hasOpened_cons hnever rfl)
  | @closed st hconfig hstate hnever =>
    obtain ⟨hallow, hafter⟩ := redisCheckStep_closed check (hconfig ▸ henabled) hstate
    obtain ⟨hkeeps, hcases⟩ := redisCbRecordError_closed_cases check.clock.error check.clock.opened hstate
    rw [hafter]
    rcases hcases with hclosed | ⟨hopen, hopenedAt⟩
    · refine .closed (hkeeps.trans hconfig) hclosed (not_hasOpened_cons hnever ?_)
      show breakerOpen (redisCheckStep (some st) check).1 = false
      simp [hafter, breakerOpen, hclosed]
    · refine .opened (hkeeps.trans hconfig) hopen ?_
      rw [hopenedAt]
      exact lastOpening_cons_allow hallow hafter hopen
  | @opened st hconfig hstate hlast =>
    by_cases hbefore : check.clock.state - st.cb.openedAt < st.config.cbCooldownSec
    · obtain ⟨hdeny, hafter⟩ := redisCheckStep_open (hconfig ▸ henabled) (hconfig ▸ hmode) hstate hbefore
      rw [hafter]
      refine .opened hconfig hstate ?_
      rw [lastOpening, if_neg, hlast]
      rintro ⟨hallow, -⟩
      exact RedisDecision.noConfusion (hdeny.symm.trans hallow)
    · obtain ⟨hallow, st', hafter, hkeeps, hopen, hopenedAt⟩ :=
        redisCheckStep_cooled (hconfig ▸ henabled) hstate (Int.not_lt.mp hbefore)
      rw [hafter]
      refine .opened (hkeeps.trans hconfig) hopen ?_
      rw [hopenedAt]
      exact lastOpening_cons_allow hallow hafter hopen

/-- The breaker is closed or open after every run of checks. -/
theorem verdict_of_run (henabled : config.enabled = true) (hmode : config.cbFailOpen = false)
    (run : Run redisCheckStep (redisRateLimiterInit config) past st) : Verdict config past st := by
  refine run.invariant ?_ (fun _ _ check h => h.step henabled hmode check)
  have hnever : ¬ HasOpened [] := by simp [HasOpened]
  cases hinit : redisRateLimiterInit config with
  | none => exact .absent hnever
  | some st₀ =>
    rw [redisRateLimiterInit_eq hinit]
    exact .closed rfl rfl hnever

/-- **A check after an opening.** It does not let its request through just when it comes before the
cooldown of the last opening is over. -/
theorem ne_allow_iff (henabled : config.enabled = true) (hmode : config.cbFailOpen = false)
    (h : Verdict config past st) (hopened : HasOpened past) (check : RedisCheck) :
    (redisCheckStep st check).2.decision ≠ .allow ↔
      ∃ opening, lastOpening past = some opening ∧ check.clock.state - opening < config.cbCooldownSec := by
  cases h with
  | absent hnever => exact absurd hopened hnever
  | closed _ _ hnever => exact absurd hopened hnever
  | @opened st hconfig hstate hlast =>
    by_cases hbefore : check.clock.state - st.cb.openedAt < st.config.cbCooldownSec
    · obtain ⟨hdeny, -⟩ := redisCheckStep_open (hconfig ▸ henabled) (hconfig ▸ hmode) hstate hbefore
      refine iff_of_true ?_ ⟨_, hlast, hconfig ▸ hbefore⟩
      rw [hdeny]
      exact RedisDecision.noConfusion
    · obtain ⟨hallow, -⟩ := redisCheckStep_cooled (hconfig ▸ henabled) hstate (Int.not_lt.mp hbefore)
      refine iff_of_false (not_not_intro hallow) ?_
      rintro ⟨opening, hopening, hlt⟩
      obtain rfl := Option.some.inj (hlast.symm.trans hopening)
      exact hbefore (hconfig ▸ hlt)

end Runs

/-- **Failing closed.** For a limiter that is enabled and fails closed, in a build where Redis never works:
after an opening no check of a run let its request through if and only if every check came before the
cooldown of the last opening was over. -/
theorem fail_closed_iff (config : RedisLimiterConfig) (henabled : config.enabled = true)
    (hmode : config.cbFailOpen = false) (past : List RedisCheckRecord) (st : Option RedisLimiter)
    (run : Run redisCheckStep (redisRateLimiterInit config) past st) :
    StaysClosed past ↔ WithinCooldown config past := by
  have hcheck : ∀ r earlier, r :: earlier <:+ past → HasOpened earlier →
      (r.output.decision ≠ .allow ↔ ∃ opening, lastOpening earlier = some opening ∧
        r.input.clock.state - opening < config.cbCooldownSec) := by
    intro r earlier hsuffix hopened
    obtain ⟨hrun, hr⟩ := run.of_suffix hsuffix
    rw [hr]
    exact ne_allow_iff henabled hmode (verdict_of_run henabled hmode hrun) hopened r.input
  constructor
  · intro hstays r earlier hsuffix hopened
    exact (hcheck r earlier hsuffix hopened).mp (hstays r earlier hsuffix hopened)
  · intro hwithin r earlier hsuffix hopened
    exact (hcheck r earlier hsuffix hopened).mpr (hwithin r earlier hsuffix hopened)

/-- A check at which all clocks read `now`. -/
def checkAt (now : ℤ) : RedisCheck := ⟨⟨now, now, now⟩, ⟨.allow, 0, 0, 0, 0, false⟩⟩

/-- The breaker opens at the second check, and the third, five seconds later, is denied. -/
theorem fail_closed_in_time :
    StaysClosed (exec redisCheckStep (redisRateLimiterInit twoErrorConfig)
      [checkAt 0, checkAt 0, checkAt 5]).1 := by
  refine (fail_closed_iff twoErrorConfig rfl rfl _ _ (run_exec _ _ _)).mpr ?_
  intro r earlier hsuffix hopened
  rcases List.suffix_cons_iff.mp hsuffix with heq | hsuffix
  · obtain ⟨rfl, rfl⟩ := List.cons.inj heq
    exact ⟨0, by decide, by decide⟩
  · -- before the first two checks the breaker has not been open
    exfalso
    rcases List.suffix_cons_iff.mp hsuffix with heq | hsuffix
    · obtain ⟨-, rfl⟩ := List.cons.inj heq
      revert hopened
      simp only [HasOpened]
      decide
    · rcases List.suffix_cons_iff.mp hsuffix with heq | hsuffix
      · obtain ⟨-, rfl⟩ := List.cons.inj heq
        simp [HasOpened] at hopened
      · cases List.suffix_nil.mp hsuffix

/-- Redis is down and the breaker open, and a check a hundred seconds later lets its request through. -/
theorem fail_closed_opens_up :
    let past := (exec redisCheckStep (redisRateLimiterInit twoErrorConfig) [checkAt 0, checkAt 0, checkAt 100]).1
    past.map (·.output.decision) = [.allow, .allow, .allow] ∧
      past.map (breakerOpen ·.after) = [true, true, false] ∧ ¬ StaysClosed past := by
  refine ⟨by decide, by decide, ?_⟩
  intro hstays
  refine hstays _ _ (List.suffix_refl _) ⟨_, List.mem_cons_self, ?_⟩ ?_
  · decide
  · decide

end CGateway
