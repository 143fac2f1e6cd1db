import CGateway.Lib.Machine
import CGateway.Lib.Windows
import CGateway.Limiter.RateLimiter

/-! # The fixed window of the memory backend

`memory_rl_check` counts all endpoints in one window, which the first check after its end moves,
whatever the endpoint. This module reads the counters off the history of a run.

* `allowedSinceReset` — the checks on an endpoint that were allowed since the last reset;
* `CheckLaw` — what a check answers, stated on the history alone;
* `memoryRl_fixed_window` — in every run every check obeys the law, resets are `ttl` apart, and an
  interval of `ttl` seconds allows at most twice the limit. -/

namespace CGateway

open Machine Windows

/-! ### Runs of checks -/

/-- One call of `memory_rl_check`: the time and the number passed as the endpoint. -/
structure MemoryCheck where
  now : ℤ
  endpoint : ℕ
  deriving DecidableEq, Repr

/-- One check: the result and what it writes to `*remaining_out`. -/
def memoryStep (st : MemoryRlState) (c : MemoryCheck) : MemoryRlState × RlResult × Option ℕ :=
  let outcome := memoryRlCheckId c.now c.endpoint st
  (outcome.state, outcome.result, outcome.remaining)

/-- A limiter with these settings before its first check. -/
def memoryRlFresh (limits : RlEndpoint → ℤ) (ttl : ℤ) : MemoryRlState where
  counters := fun _ => 0
  windowStartedAt := 0
  ttlSeconds := ttl
  limits := limits
  totalHits := 0
  totalExceeded := 0

/-- `memory_rl_init` makes such a limiter. -/
theorem memoryRlInit_eq (getenv : Getenv) :
    memoryRlInit getenv = memoryRlFresh (backendEndpointLimit getenv) (backendTtlSeconds getenv) :=
  rfl

/-- A check as the history keeps it. -/
abbrev MemoryRecord := Record MemoryRlState MemoryCheck (RlResult × Option ℕ)

/-- A run of checks on a limiter with these settings. -/
abbrev MemoryRun (limits : RlEndpoint → ℤ) (ttl : ℤ) : List MemoryRecord → MemoryRlState → Prop :=
  Run memoryStep (memoryRlFresh limits ttl)

/-- The clock of a history is positive and does not go back. -/
structure Clocked (past : List MemoryRecord) : Prop where
  monotone : past.Pairwise fun later earlier => earlier.input.now ≤ later.input.now
  positive : ∀ r ∈ past, 0 < r.input.now

/-! ### Readings of a history -/

/-- A check at this time opens a new window. -/
def WindowExpired (now : ℤ) (st : MemoryRlState) : Prop :=
  st.windowStartedAt = 0 ∨ now - st.windowStartedAt ≥ st.ttlSeconds

instance (now : ℤ) (st : MemoryRlState) : Decidable (WindowExpired now st) :=
  inferInstanceAs (Decidable (_ ∨ _))

/-- The check reset the window. -/
def MemoryRecord.resets (r : MemoryRecord) : Bool := decide (WindowExpired r.input.now r.before)

/-- The check was on this endpoint and was allowed. -/
def MemoryRecord.allows (endpoint : RlEndpoint) (r : MemoryRecord) : Bool :=
  RlEndpoint.ofId r.input.endpoint == some endpoint && r.output.1 == .allowed

/-- The start of the window in which the check was counted. -/
def MemoryRecord.window (r : MemoryRecord) : ℤ := r.after.windowStartedAt

/-- The checks on an endpoint that were allowed since the last reset. -/
def allowedSinceReset (endpoint : RlEndpoint) : List MemoryRecord → ℕ
  | [] => 0
  | r :: past =>
      (if r.resets then 0 else allowedSinceReset endpoint past) + (r.allows endpoint).toNat

/-- The checks on an endpoint that were allowed before this one and since the last reset, which may be
the one this check makes. -/
def allowedBefore (endpoint : RlEndpoint) (earlier : List MemoryRecord) (r : MemoryRecord) : ℕ :=
  if r.resets then 0 else allowedSinceReset endpoint earlier

/-- The times of the resets, the latest first. -/
def resetTimes (past : List MemoryRecord) : List ℤ :=
  (past.filter MemoryRecord.resets).map (·.input.now)

/-- The allowed checks on an endpoint in the interval of `length` seconds from `a` on, its last second
included. -/
def allowedWithin (endpoint : RlEndpoint) (a length : ℤ) (past : List MemoryRecord) : ℕ :=
  past.countP fun r => r.allows endpoint && (a ≤ r.input.now && r.input.now ≤ a + length)

/-- What a check on an endpoint answers, given the checks before it. -/
structure CheckLaw (limits : RlEndpoint → ℤ) (endpoint : RlEndpoint) (earlier : List MemoryRecord)
    (r : MemoryRecord) : Prop where
  allowed_iff : r.output.1 = .allowed ↔ (allowedBefore endpoint earlier r : ℤ) < limits endpoint
  remaining : r.output.1 = .allowed →
    r.output.2 = some (limits endpoint - (allowedBefore endpoint earlier r + 1)).toNat
  exceeded : r.output.1 ≠ .allowed → r.output = (.exceeded, some 0)

/-! ### What a check does -/

section Step

variable (st : MemoryRlState) (c : MemoryCheck)

/-- A limit that fits an `int` is its own conversion to `unsigned int`. -/
theorem unsignedInt_of_int {n : ℤ} (h₀ : 0 ≤ n) (h : n < 2 ^ 31) : unsignedInt n = n.toNat := by
  rw [unsignedInt, Int.emod_eq_of_lt h₀ (by omega)]

/-- An expired window is replaced by an empty one. -/
theorem memoryRlWindow_expired {now : ℤ} {st : MemoryRlState} (h : WindowExpired now st) :
    memoryRlWindow now st = { st with windowStartedAt := now, counters := fun _ => 0 } := if_pos h

/-- An open window is kept. -/
theorem memoryRlWindow_open {now : ℤ} {st : MemoryRlState} (h : ¬ WindowExpired now st) :
    memoryRlWindow now st = st := if_neg h

@[simp] theorem memoryRlWindow_limits (now : ℤ) : (memoryRlWindow now st).limits = st.limits := by
  rw [memoryRlWindow]
  split <;> rfl

@[simp] theorem memoryRlWindow_ttlSeconds (now : ℤ) : (memoryRlWindow now st).ttlSeconds = st.ttlSeconds := by
  rw [memoryRlWindow]
  split <;> rfl

/-- A number that is no endpoint gets an error. -/
theorem memoryStep_none (h : RlEndpoint.ofId c.endpoint = none) :
    memoryStep st c = (memoryRlWindow c.now st, .error, none) := by
  rw [memoryStep, memoryRlCheckId, h]

/-- A check at the limit changes no counter. -/
theorem memoryStep_exceeded {endpoint : RlEndpoint} (he : RlEndpoint.ofId c.endpoint = some endpoint)
    (h : unsignedInt (st.limits endpoint) ≤ (memoryRlWindow c.now st).counters endpoint) :
    memoryStep st c =
      ({ memoryRlWindow c.now st with
          totalHits := (memoryRlWindow c.now st).totalHits + 1
          totalExceeded := (memoryRlWindow c.now st).totalExceeded + 1 }, .exceeded, some 0) := by
  simp only [memoryStep, memoryRlCheckId, he, memoryRlCheck, memoryRlWindow_limits]
  rw [if_pos h]

/-- A check below the limit is counted. -/
theorem memoryStep_allowed {endpoint : RlEndpoint} (he : RlEndpoint.ofId c.endpoint = some endpoint)
    (h : (memoryRlWindow c.now st).counters endpoint < unsignedInt (st.limits endpoint)) :
    memoryStep st c =
      ({ memoryRlWindow c.now st with
          totalHits := (memoryRlWindow c.now st).totalHits + 1
          counters := Function.update (memoryRlWindow c.now st).counters endpoint
            ((memoryRlWindow c.now st).counters endpoint + 1) }, .allowed,
        some (unsignedInt (st.limits endpoint) -
          ((memoryRlWindow c.now st).counters endpoint + 1))) := by
  simp only [memoryStep, memoryRlCheckId, he, memoryRlCheck, memoryRlWindow_limits]
  rw [if_neg (not_le.mpr h)]

/-- What a check leaves alone, and the window it leaves. -/
theorem memoryStep_frame :
    (memoryStep st c).1.limits = st.limits ∧ (memoryStep st c).1.ttlSeconds = st.ttlSeconds ∧
      (memoryStep st c).1.windowStartedAt = (memoryRlWindow c.now st).windowStartedAt := by
  cases he : RlEndpoint.ofId c.endpoint with
  | none => simp [memoryStep_none st c he]
  | some endpoint =>
    rcases le_or_gt (unsignedInt (st.limits endpoint))
        ((memoryRlWindow c.now st).counters endpoint) with h | h
    · simp [memoryStep_exceeded st c he h]
    · simp [memoryStep_allowed st c he h]

/-- A counter counts the allowed checks on its endpoint. -/
theorem memoryStep_counters (endpoint : RlEndpoint) :
    (memoryStep st c).1.counters endpoint = (memoryRlWindow c.now st).counters endpoint +
      (MemoryRecord.allows endpoint (recordOf memoryStep st c)).toNat := by
  rw [MemoryRecord.allows, recordOf]
  dsimp only
  cases he : RlEndpoint.ofId c.endpoint with
  | none => simp [memoryStep_none st c he]
  | some target =>
    rcases le_or_gt (unsignedInt (st.limits target))
        ((memoryRlWindow c.now st).counters target) with h | h
    · simp [memoryStep_exceeded st c he h]
    · rw [memoryStep_allowed st c he h]
      by_cases heq : target = endpoint
      · subst heq
        simp
      · simp [heq, Function.update_of_ne (Ne.symm heq)]

/-- Counters stay at or below their limits. -/
theorem memoryStep_counters_le (endpoint : RlEndpoint)
    (h : (memoryRlWindow c.now st).counters endpoint ≤ unsignedInt (st.limits endpoint)) :
    (memoryStep st c).1.counters endpoint ≤ unsignedInt (st.limits endpoint) := by
  cases he : RlEndpoint.ofId c.endpoint with
  | none =>
    rw [memoryStep_none st c he]
    exact h
  | some target =>
    rcases le_or_gt (unsignedInt (st.limits target))
        ((memoryRlWindow c.now st).counters target) with hge | hlt
    · rw [memoryStep_exceeded st c he hge]
      exact h
    · rw [memoryStep_allowed st c he hlt]
      by_cases heq : endpoint = target
      · subst heq
        simp only [Function.update_self]
        omega
      · simpa [heq] using h

end Step

/-! ### The invariant -/

/-- What the state of the limiter says about its history. -/
structure MemoryInv (limits : RlEndpoint → ℤ) (ttl : ℤ) (past : List MemoryRecord)
    (st : MemoryRlState) : Prop where
  limits_eq : st.limits = limits
  ttl_eq : st.ttlSeconds = ttl
  started : (past = [] ∧ st.windowStartedAt = 0) ∨ ∃ r ∈ past, r.input.now = st.windowStartedAt
  counters_eq : ∀ endpoint, st.counters endpoint = allowedSinceReset endpoint past
  current : ∀ endpoint,
    past.countP (fun r => r.allows endpoint && r.window == st.windowStartedAt) = st.counters endpoint
  cap : ∀ endpoint w,
    past.countP (fun r => r.allows endpoint && r.window == w) ≤ (limits endpoint).toNat
  windowed : Windowed ttl (fun r : MemoryRecord => r.input.now) MemoryRecord.window past
  latest : ∀ r ∈ past, r.window = st.windowStartedAt ∨ r.window + ttl ≤ st.windowStartedAt
  resets_le : ∀ t ∈ resetTimes past, t ≤ st.windowStartedAt
  resets_spaced : (resetTimes past).Pairwise fun later earlier => earlier + ttl ≤ later

section Invariant

variable {limits : RlEndpoint → ℤ} {ttl : ℤ} {past : List MemoryRecord} {st : MemoryRlState}

/-- The clock of the part of a history before its last check. -/
theorem Clocked.tail {r : MemoryRecord} (h : Clocked (r :: past)) : Clocked past :=
  ⟨(List.pairwise_cons.mp h.monotone).2, fun r' hr' => h.positive r' (List.mem_cons_of_mem r hr')⟩

/-- An earlier part of a history is clocked too. -/
theorem Clocked.of_suffix {earlier : List MemoryRecord} (h : Clocked past)
    (hsuffix : earlier <:+ past) : Clocked earlier :=
  ⟨h.monotone.sublist hsuffix.sublist, fun r hr => h.positive r (hsuffix.subset hr)⟩

/-- Counting one more check. -/
theorem countP_allows_cons (endpoint : RlEndpoint) (w : ℤ) (r : MemoryRecord) :
    (r :: past).countP (fun r => r.allows endpoint && r.window == w) =
      past.countP (fun r => r.allows endpoint && r.window == w) +
        if r.window = w then (r.allows endpoint).toNat else 0 := by
  rw [List.countP_cons]
  by_cases hw : r.window = w
  · cases r.allows endpoint <;> simp [hw]
  · simp [hw]

/-- The window of the check that is made next. -/
theorem window_recordOf (st : MemoryRlState) (c : MemoryCheck) :
    MemoryRecord.window (recordOf memoryStep st c) = (memoryRlWindow c.now st).windowStartedAt :=
  (memoryStep_frame st c).2.2

section Kept

variable (inv : MemoryInv limits ttl past st)
  (hlimits : ∀ endpoint, 0 < limits endpoint ∧ limits endpoint < 2 ^ 31) {c : MemoryCheck}
include inv

/-- The window opened at the time of some check, and the clock has not gone back since. -/
theorem MemoryInv.started_le (hclock : Clocked (recordOf memoryStep st c :: past))
    (hopen : ¬ WindowExpired c.now st) : st.windowStartedAt ≤ c.now := by
  rcases inv.started with ⟨_, hzero⟩ | ⟨r, hr, hnow⟩
  · exact absurd (.inl hzero) hopen
  · rw [← hnow]
    exact (List.pairwise_cons.mp hclock.monotone).1 r hr

/-- A new window is `ttl` later than the windows before it. -/
theorem MemoryInv.expired_le (hclock : Clocked past) {now : ℤ}
    (hexpired : WindowExpired now st) (hpast : past ≠ []) : st.windowStartedAt + ttl ≤ now := by
  rcases inv.started with ⟨hnil, _⟩ | ⟨r, hr, hnow⟩
  · exact absurd hnil hpast
  · have hpos := hclock.positive r hr
    rcases hexpired with hzero | hlate
    · omega
    · rw [inv.ttl_eq] at hlate
      omega

/-- A new window is `ttl` later than the resets before it. -/
theorem MemoryInv.resets_expired (hclock : Clocked past) {now : ℤ}
    (hexpired : WindowExpired now st) {t : ℤ} (ht : t ∈ resetTimes past) : t + ttl ≤ now := by
  have hne : past ≠ [] := by
    rintro rfl
    cases ht
  have hle := inv.resets_le t ht
  have hlate := inv.expired_le hclock hexpired hne
  omega

/-- The counter that a check reads counts the allowed checks before it. -/
theorem MemoryInv.allowedBefore_eq (c : MemoryCheck) (endpoint : RlEndpoint) :
    allowedBefore endpoint past (recordOf memoryStep st c) = (memoryRlWindow c.now st).counters endpoint := by
  rw [allowedBefore]
  by_cases hexpired : WindowExpired c.now st
  · have hresets : MemoryRecord.resets (recordOf memoryStep st c) = true := decide_eq_true hexpired
    rw [hresets, if_pos rfl, memoryRlWindow_expired hexpired]
  · have hresets : MemoryRecord.resets (recordOf memoryStep st c) = false := decide_eq_false hexpired
    rw [hresets, if_neg Bool.false_ne_true, memoryRlWindow_open hexpired, inv.counters_eq]

include hlimits

/-- The caps after a check, where the counters of its window count the allowed checks in it. -/
theorem MemoryInv.cap_step (c : MemoryCheck) (hcount : ∀ endpoint, past.countP (fun r => r.allows endpoint &&
      r.window == (memoryRlWindow c.now st).windowStartedAt) =
        (memoryRlWindow c.now st).counters endpoint) (endpoint : RlEndpoint) (w : ℤ) :
    (recordOf memoryStep st c :: past).countP
        (fun r : MemoryRecord => r.allows endpoint && r.window == w) ≤ (limits endpoint).toNat := by
  rw [countP_allows_cons, window_recordOf]
  have hcap := inv.cap endpoint w
  -- Only the window of the check itself gains one, and its counter stops at the limit.
  split
  · rename_i hw
    subst hw
    rw [hcount endpoint] at hcap ⊢
    have hlimit := unsignedInt_of_int (hlimits endpoint).1.le (hlimits endpoint).2
    have hle := memoryStep_counters_le st c endpoint
    rw [inv.limits_eq, hlimit, memoryStep_counters] at hle
    exact hle hcap
  · omega

/-- A check keeps the invariant, if the window it is counted in fits the history. -/
theorem MemoryInv.step_of {current : MemoryRlState} (hcurrent : memoryRlWindow c.now st = current)
    (hin : current.windowStartedAt ≤ c.now ∧ c.now < current.windowStartedAt + ttl)
    (hstarted : c.now = current.windowStartedAt ∨ ∃ r ∈ past, r.input.now = current.windowStartedAt)
    (hcount : ∀ endpoint, past.countP (fun r => r.allows endpoint &&
      r.window == current.windowStartedAt) = current.counters endpoint)
    (hlatest : ∀ r ∈ past, r.window = current.windowStartedAt ∨ r.window + ttl ≤ current.windowStartedAt)
    (hresets : ∀ t ∈ resetTimes (recordOf memoryStep st c :: past), t ≤ current.windowStartedAt)
    (hspaced : (resetTimes (recordOf memoryStep st c :: past)).Pairwise fun later earlier =>
      earlier + ttl ≤ later) :
    MemoryInv limits ttl (recordOf memoryStep st c :: past) (memoryStep st c).1 := by
  subst hcurrent
  obtain ⟨hlim, httl, hstart⟩ := memoryStep_frame st c
  have hwindow := window_recordOf st c
  refine ⟨hlim.trans inv.limits_eq, httl.trans inv.ttl_eq, .inr ?_, fun endpoint => ?_,
    fun endpoint => ?_, inv.cap_step hlimits c hcount, inv.windowed.cons ?_ fun r hr => ?_, fun r hr => ?_, ?_, hspaced⟩
  · rw [hstart]
    rcases hstarted with hnow | ⟨r, hr, hnow⟩
    · exact ⟨_, List.mem_cons_self, hnow⟩
    · exact ⟨r, List.mem_cons_of_mem _ hr, hnow⟩
  · rw [memoryStep_counters, ← inv.allowedBefore_eq]
    rfl
  · rw [hstart, countP_allows_cons, hcount, hwindow, if_pos rfl, memoryStep_counters]
  · rw [hwindow]
    exact hin
  · rw [hwindow]
    exact hlatest r hr
  · rw [hstart]
    rcases List.mem_cons.mp hr with rfl | hr
    · exact .inl hwindow
    · exact hlatest r hr
  · rw [hstart]
    exact hresets

/-- A check in an open window keeps the invariant. -/
theorem MemoryInv.step_open (hclock : Clocked (recordOf memoryStep st c :: past))
    (hopen : ¬ WindowExpired c.now st) :
    MemoryInv limits ttl (recordOf memoryStep st c :: past) (memoryStep st c).1 := by
  have hresets : MemoryRecord.resets (recordOf memoryStep st c) = false := decide_eq_false hopen
  have htimes : resetTimes (recordOf memoryStep st c :: past) = resetTimes past := by
    rw [resetTimes, List.filter_cons_of_neg (by simp [hresets]), resetTimes]
  have hle := inv.started_le hclock hopen
  have hstarted := inv.started.resolve_left fun hfresh => hopen (.inl hfresh.2)
  -- The check falls into the window that is open, which is the latest.
  refine inv.step_of hlimits (memoryRlWindow_open hopen) ⟨hle, ?_⟩ (.inr hstarted) inv.current inv.latest
    (htimes ▸ inv.resets_le) (htimes ▸ inv.resets_spaced)
  rw [WindowExpired, not_or, inv.ttl_eq] at hopen
  have := hopen.2
  omega

/-- A check that opens a new window keeps the invariant. -/
theorem MemoryInv.step_expired (hpos : 0 < ttl)
    (hclock : Clocked (recordOf memoryStep st c :: past)) (hexpired : WindowExpired c.now st) :
    MemoryInv limits ttl (recordOf memoryStep st c :: past) (memoryStep st c).1 := by
  have hresets : MemoryRecord.resets (recordOf memoryStep st c) = true := decide_eq_true hexpired
  have htimes : resetTimes (recordOf memoryStep st c :: past) = c.now :: resetTimes past := by
    rw [resetTimes, List.filter_cons_of_pos hresets, List.map_cons, resetTimes]
    rfl
  -- Every earlier window lies `ttl` before the new one, so nothing is counted in it yet.
  have hearlier : ∀ r ∈ past, r.window + ttl ≤ c.now := by
    intro r hr
    have hle := inv.expired_le hclock.tail hexpired (List.ne_nil_of_mem hr)
    rcases inv.latest r hr with heq | hle' <;> omega
  have hempty : ∀ endpoint, past.countP (fun r => r.allows endpoint && r.window == c.now) = 0 := by
    intro endpoint
    rw [List.countP_eq_zero]
    intro r hr
    have hne : r.window ≠ c.now := by
      have := hearlier r hr
      omega
    simp [hne]
  refine inv.step_of hlimits (memoryRlWindow_expired hexpired) ⟨le_rfl, ?_⟩ (.inl rfl) hempty
    (fun r hr => .inr (hearlier r hr)) ?_ ?_
  · dsimp only
    omega
  · rw [htimes, List.forall_mem_cons]
    refine ⟨le_rfl, fun t ht => ?_⟩
    have hlate := inv.resets_expired hclock.tail hexpired ht
    dsimp only
    omega
  · rw [htimes, List.pairwise_cons]
    exact ⟨fun t ht => inv.resets_expired hclock.tail hexpired ht, inv.resets_spaced⟩

/-- Every check obeys the law. -/
theorem MemoryInv.checkLaw {endpoint : RlEndpoint} (he : RlEndpoint.ofId c.endpoint = some endpoint) :
    CheckLaw limits endpoint past (recordOf memoryStep st c) := by
  have hbefore := inv.allowedBefore_eq c endpoint
  have hlimit : unsignedInt (st.limits endpoint) = (limits endpoint).toNat := by
    rw [inv.limits_eq, unsignedInt_of_int (hlimits endpoint).1.le (hlimits endpoint).2]
  have hrange := hlimits endpoint
  rcases le_or_gt (unsignedInt (st.limits endpoint))
      ((memoryRlWindow c.now st).counters endpoint) with h | h
  · have hstep := memoryStep_exceeded st c he h
    rw [hlimit] at h
    refine ⟨?_, ?_, fun _ => ?_⟩
    · rw [hbefore, recordOf_output, hstep]
      simp only [reduceCtorEq, false_iff, not_lt]
      omega
    · rw [recordOf_output, hstep]
      intro hallowed
      cases hallowed
    · rw [recordOf_output, hstep]
  · have hstep := memoryStep_allowed st c he h
    rw [hlimit] at h hstep
    refine ⟨?_, fun _ => ?_, fun hne => absurd ?_ hne⟩
    · rw [hbefore, recordOf_output, hstep]
      simp only [true_iff]
      omega
    · rw [hbefore, recordOf_output, hstep]
      simp only [Option.some.injEq]
      omega
    · rw [recordOf_output, hstep]

end Kept

/-- The invariant holds in every run under such a clock. -/
theorem memoryInv_of_run (hpos : 0 < ttl) (hlimits : ∀ endpoint, 0 < limits endpoint ∧ limits endpoint < 2 ^ 31)
    (run : MemoryRun limits ttl past st) (hclock : Clocked past) : MemoryInv limits ttl past st := by
  refine run.invariant (P := fun past st => Clocked past → MemoryInv limits ttl past st) ?_ ?_ hclock
  · intro _
    exact ⟨rfl, rfl, .inl ⟨rfl, rfl⟩, fun _ => rfl, fun _ => rfl, fun _ _ => Nat.zero_le _, .nil,
      fun _ h => absurd h List.not_mem_nil, fun _ h => absurd h List.not_mem_nil, .nil⟩
  · intro past st c ih hclock
    by_cases hexpired : WindowExpired c.now st
    · exact (ih hclock.tail).step_expired hlimits hpos hclock hexpired
    · exact (ih hclock.tail).step_open hlimits hclock hexpired

/-- The checks of a run obey the law, each with the checks before it. -/
theorem checkLaw_of_run (hpos : 0 < ttl) (hlimits : ∀ endpoint, 0 < limits endpoint ∧ limits endpoint < 2 ^ 31)
    (run : MemoryRun limits ttl past st) (hclock : Clocked past) :
    ∀ r earlier, (r :: earlier) <:+ past → ∀ endpoint,
      RlEndpoint.ofId r.input.endpoint = some endpoint → CheckLaw limits endpoint earlier r := by
  intro r earlier hsuffix endpoint he
  obtain ⟨hrun, hr⟩ := run.of_suffix hsuffix
  have hearlier := (hclock.of_suffix hsuffix).tail
  rw [hr] at he ⊢
  exact (memoryInv_of_run hpos hlimits hrun hearlier).checkLaw hlimits he

end Invariant

/-- **The fixed window.** For positive limits that fit an `int`, a positive `ttl` and a positive clock
that does not go back, in every run of checks over any numbers passed as endpoints: every check on an
endpoint is answered as `CheckLaw` says, resets are at least `ttl` seconds apart, and in any interval of
`ttl` seconds at most twice the limit of an endpoint is allowed. -/
theorem memoryRl_fixed_window (limits : RlEndpoint → ℤ) (ttl : ℤ)
    (hlimits : ∀ endpoint, 0 < limits endpoint ∧ limits endpoint < 2 ^ 31) (hpos : 0 < ttl)
    (past : List MemoryRecord) (st : MemoryRlState) (run : MemoryRun limits ttl past st) (hclock : Clocked past) :
    (∀ r earlier, (r :: earlier) <:+ past → ∀ endpoint,
        RlEndpoint.ofId r.input.endpoint = some endpoint → CheckLaw limits endpoint earlier r) ∧
      (resetTimes past).Pairwise (fun later earlier => earlier + ttl ≤ later) ∧
      ∀ endpoint a, (allowedWithin endpoint a ttl past : ℤ) ≤ 2 * limits endpoint := by
  have inv := memoryInv_of_run hpos hlimits run hclock
  refine ⟨checkLaw_of_run hpos hlimits run hclock, inv.resets_spaced, fun endpoint a => ?_⟩
  have hbound : allowedWithin endpoint a ttl past ≤ 2 * (limits endpoint).toNat :=
    inv.windowed.countP_interval_le (inv.cap endpoint) a
  have hlimit := (hlimits endpoint).1
  omega

/-- Checks around the end of a window of ten seconds with a limit of one. -/
def windowChecks : List MemoryCheck := [⟨5, 0⟩, ⟨14, 0⟩, ⟨14, 1⟩, ⟨15, 7⟩, ⟨16, 0⟩]

/-- One check is allowed from the fifth second on, and never more than two in ten seconds. -/
theorem memoryRl_fixed_window_checks :
    allowedWithin .routesDecide 5 10 (exec memoryStep (memoryRlFresh (fun _ => 1) 10) windowChecks).1
        = 1 ∧
      (allowedWithin .routesDecide 6 10
        (exec memoryStep (memoryRlFresh (fun _ => 1) 10) windowChecks).1 : ℤ) ≤ 2 * 1 :=
  ⟨by decide, (memoryRl_fixed_window (fun _ => 1) 10 (fun _ => by decide) (by decide) _ _
    (run_exec memoryStep (memoryRlFresh (fun _ => 1) 10) windowChecks)
    ⟨by decide, by decide⟩).2.2 .routesDecide 6⟩

end CGateway
