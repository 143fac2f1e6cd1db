import CGateway.Abuse.TrackingTable

/-! # The patterns of the abuse check

`abuse_detection_check_patterns` tests the entry of a tenant for one pattern after the other and answers
with the first that it finds.

* `AbusePattern` — the five patterns, as the source computes them from an entry;
* `pattern_of_event` — an event of another type than the empty payload stands for its pattern;
* `targetedTenant_iff` — the first pattern that is tested is answered just when it holds. -/

namespace CGateway

open Bytes

/-! ### The patterns -/

/-- A counter is over a threshold; both are compared as `uint32_t`. -/
def exceedsThreshold (n : UInt32) (threshold : ℤ) : Bool := UInt32.ofNat (unsignedInt threshold) < n

/-- The pattern that an event stands for, in the entry of the request's tenant. -/
def AbusePattern (clock : AbuseClock) (payloadSize : ℤ) (entry : AbuseEntry) (d : AbuseDetector) :
    AbuseEventType → Bool
  | .emptyPayload => payloadSize < d.config.minPayloadSize
  | .targetedTenant =>
      exceedsThreshold
        (entry.requestCount * 60 / UInt32.ofNat (unsignedInt (max 1 (clock.checkNow - entry.firstSeen))))
        d.config.targetedTenantRateThreshold
  | .rateLimitEvasion =>
      exceedsThreshold entry.apiKeyCount d.config.evasionApiKeysThreshold ||
        exceedsThreshold entry.ipCount d.config.evasionIpsThreshold
  | .heavyPayload =>
      10 < entry.requestCount &&
        exceedsThreshold (entry.largePayloadCount * 100 / entry.requestCount)
          d.config.largePayloadRatioThreshold
  | .multiTenantFlood => isFlood (floodWindow clock.checkWindow entry d)

/-- A threshold that is not negative is compared as it is. -/
theorem exceedsThreshold_iff {threshold : ℤ} (hpos : 0 ≤ threshold) (hint : threshold < 2 ^ 31)
    (n : UInt32) : exceedsThreshold n threshold = true ↔ threshold < n.toNat := by
  have hmod : threshold % 2 ^ 32 = threshold := Int.emod_eq_of_lt hpos (by omega)
  have hlt : threshold.toNat < UInt32.size := by
    show threshold.toNat < 4294967296
    omega
  rw [exceedsThreshold, decide_eq_true_eq, UInt32.lt_iff_toNat_lt, unsignedInt, hmod, UInt32.toNat_ofNat_of_lt' hlt]
  omega

/-- The entry the pattern check looks at, and the detector it looks at it in. -/
def examined (clock : AbuseClock) (tenantId : List UInt8) (d : AbuseDetector) :
    Option (AbuseEntry × AbuseDetector) :=
  let found := findOrCreateEntry clock.checkFirst clock.checkLast tenantId d
  found.1.map fun idx => (found.2.table idx, found.2)

/-! ### The check -/

section Check

variable {d : AbuseDetector} {tenantId : List UInt8}

/-- Tracking a request changes neither the configuration nor the state of the detector. -/
theorem active_abuseTrackRequest (clock : AbuseClock) (tenantId : List UInt8)
    (apiKey : Option (List UInt8)) (clientIp : List UInt8) (payloadSize : ℤ) (d : AbuseDetector) :
    (abuseTrackRequest clock tenantId apiKey clientIp payloadSize d).active = d.active :=
  congrArg (fun settings : AbuseConfig × Bool => settings.2 && settings.1.enabled)
    (settings_abuseTrackRequest ..)

/-- **An event of another type than the empty payload is an abuse.** The detector is on, and the pattern
the event stands for holds in the entry it looked at. -/
theorem pattern_of_event (clock : AbuseClock) (payloadSize : ℤ)
    (hevent : (abuseCheckPatterns clock tenantId payloadSize d).1 ≠ .emptyPayload) :
    d.active = true ∧ ∃ entry d', examined clock tenantId d = some (entry, d') ∧
      AbusePattern clock payloadSize entry d' (abuseCheckPatterns clock tenantId payloadSize d).1 = true := by
  unfold abuseCheckPatterns at hevent ⊢
  unfold examined
  split at hevent
  · exact absurd rfl hevent
  · next hguard =>
      rw [if_neg hguard]
      have hactive : d.active = true := by
        simp only [Bool.or_eq_true, Bool.not_eq_true', not_or, Bool.not_eq_false] at hguard
        rw [AbuseDetector.active, hguard.1.1, hguard.1.2]
        rfl
      refine ⟨hactive, ?_⟩
      generalize findOrCreateEntry clock.checkFirst clock.checkLast tenantId d = found at hevent ⊢
      obtain ⟨idx?, d'⟩ := found
      cases idx? with
      | none => exact absurd rfl hevent
      | some idx =>
        refine ⟨d'.table idx, d', rfl, ?_⟩
        dsimp only at hevent ⊢
        -- one case for each `return` of the source
        split_ifs at hevent ⊢ with hcount htargeted hevasion hheavy hempty hflood
        · exact absurd rfl hevent
        · exact htargeted
        · exact hevasion
        · exact hheavy
        · exact absurd rfl hevent
        · exact hflood
        · exact absurd rfl hevent

/-- The rate is tested first, and of a tenant without requests it is zero. -/
theorem targetedTenant_iff (clock : AbuseClock) (tenant : TenantId) (payloadSize : ℤ) (hactive : d.active = true)
    {entry : AbuseEntry} {d' : AbuseDetector} (hexamined : examined clock tenant.bytes d = some (entry, d')) :
    (abuseCheckPatterns clock tenant.bytes payloadSize d).1 = .targetedTenant ↔
      AbusePattern clock payloadSize entry d' .targetedTenant = true := by
  unfold examined at hexamined
  simp only [abuseCheckPatterns, abuse_guard, hactive, Bool.not_true, Bool.false_eq_true, if_false]
  generalize findOrCreateEntry clock.checkFirst clock.checkLast tenant.bytes d = found at hexamined ⊢
  obtain ⟨idx?, d''⟩ := found
  cases idx? with
  | none => cases hexamined
  | some idx =>
    obtain ⟨rfl, rfl⟩ := Prod.mk.inj (Option.some.inj hexamined)
    dsimp only [AbusePattern, exceedsThreshold]
    by_cases hcount : (d''.table idx).requestCount = 0
    · rw [if_pos hcount, hcount]
      simp
    · rw [if_neg hcount]
      split_ifs with hover
      all_goals simp [hover]

end Check

end CGateway
