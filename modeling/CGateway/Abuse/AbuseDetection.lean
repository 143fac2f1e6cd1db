import Mathlib.Logic.Function.Basic
import CGateway.Environment

/-! # Abuse detection

`abuse_detection.c`: a table of tracking entries, hashed by tenant with linear probing, and the
patterns that are looked for in an entry. Blocking and response actions are stubs in the source: no
tenant is ever blocked and every event is only logged. -/

namespace CGateway

open Bytes CString

/-- `MAX_TRACKING_ENTRIES`. -/
def maxTrackingEntries : ℕ := 10000

/-- `CLEANUP_INTERVAL_SECONDS`. -/
def cleanupIntervalSeconds : ℤ := 300

/-- `abuse_event_type_t`. -/
inductive AbuseEventType where
  | emptyPayload
  | targetedTenant
  | rateLimitEvasion
  | heavyPayload
  | multiTenantFlood
  deriving DecidableEq, Repr

/-- `abuse_detection_config_t`. -/
structure AbuseConfig where
  enabled : Bool
  minPayloadSize : ℤ
  largePayloadThreshold : ℤ
  largePayloadRatioThreshold : ℤ
  targetedTenantRateThreshold : ℤ
  evasionApiKeysThreshold : ℤ
  evasionIpsThreshold : ℤ
  multiTenantActiveThreshold : ℤ
  retentionWindowSeconds : ℤ
  deriving DecidableEq, Repr

/-- `abuse_detection_parse_config`, from its defaults. -/
def abuseParseConfig (getenv : Getenv) : AbuseConfig where
  enabled := envFlag getenv "GATEWAY_ABUSE_DETECTION_ENABLED"
  minPayloadSize := envPositive getenv "GATEWAY_ABUSE_MIN_PAYLOAD_SIZE" 10
  largePayloadThreshold := envPositive getenv "GATEWAY_ABUSE_LARGE_PAYLOAD_THRESHOLD" 524288
  largePayloadRatioThreshold := 80
  targetedTenantRateThreshold := envPositive getenv "GATEWAY_ABUSE_TARGETED_TENANT_THRESHOLD" 500
  evasionApiKeysThreshold := envPositive getenv "GATEWAY_ABUSE_EVASION_API_KEYS_THRESHOLD" 10
  evasionIpsThreshold := 10
  multiTenantActiveThreshold := 20
  retentionWindowSeconds := envPositive getenv "GATEWAY_ABUSE_RETENTION_WINDOW_SECONDS" 300

/-- `abuse_tracking_entry_t`; an entry is free when its tenant is empty. -/
structure AbuseEntry where
  tenantId : List UInt8 := []
  apiKey : List UInt8 := []
  clientIp : List UInt8 := []
  firstSeen : ℤ := 0
  lastSeen : ℤ := 0
  requestCount : UInt32 := 0
  apiKeyCount : UInt32 := 0
  ipCount : UInt32 := 0
  largePayloadCount : UInt32 := 0
  totalPayloadSize : UInt32 := 0
  deriving DecidableEq, Repr

/-- The file-scope variables of the detector. -/
structure AbuseDetector where
  config : AbuseConfig
  table : ℕ → AbuseEntry
  trackingCount : ℤ
  lastCleanup : ℤ
  initialized : Bool
  activeTenantsCount : UInt32
  multiTenantWindowStart : ℤ
  multiTenantTotalRequests : UInt32

/-- The variables at start-up. -/
def AbuseDetector.atStart : AbuseDetector where
  config := ⟨false, 0, 0, 0, 0, 0, 0, 0, 0⟩
  table := fun _ => {}
  trackingCount := 0
  lastCleanup := 0
  initialized := false
  activeTenantsCount := 0
  multiTenantWindowStart := 0
  multiTenantTotalRequests := 0

/-- `abuse_detection_init`: a second call does nothing. -/
def abuseInit (now : ℤ) (config : AbuseConfig) (d : AbuseDetector) : AbuseDetector :=
  if d.initialized then d
  else { d with
    config := config, table := fun _ => {}, trackingCount := 0, lastCleanup := now,
    initialized := true }

/-- `hash_tenant`: the bytes are signed chars. -/
def hashTenant (tenantId : List UInt8) : ℕ :=
  (tenantId.foldl (fun (hash : UInt32) c => (hash <<< 5) + hash + c.toInt8.toInt32.toUInt32)
    5381).toNat % maxTrackingEntries

/-- The first slot of a probe sequence that is free or the tenant's. -/
def probeSlot (table : ℕ → AbuseEntry) (tenantId : List UInt8) : ℕ → ℕ → Option ℕ
  | 0, _ => none
  | fuel + 1, idx =>
      if (table idx).tenantId = [] ∨ (table idx).tenantId = tenantId then some idx
      else probeSlot table tenantId fuel ((idx + 1) % maxTrackingEntries)

/-- Change the entry in a slot. -/
def AbuseDetector.setEntry (d : AbuseDetector) (idx : ℕ) (entry : AbuseEntry) : AbuseDetector :=
  { d with table := Function.update d.table idx entry }

/-- `find_or_create_entry`: the slot, a full table giving the one the tenant hashes to. -/
def findOrCreateEntry (firstNow lastNow : ℤ) (tenantId : List UInt8) (d : AbuseDetector) :
    Option ℕ × AbuseDetector :=
  if tenantId = [] then (none, d)
  else
    match probeSlot d.table tenantId maxTrackingEntries (hashTenant tenantId) with
    | none => (some (hashTenant tenantId), d)
    | some idx =>
        if (d.table idx).tenantId = [] then
          let entry : AbuseEntry :=
            { tenantId := copyField 64 tenantId, firstSeen := firstNow, lastSeen := lastNow }
          let count := if d.trackingCount < maxTrackingEntries then d.trackingCount + 1
            else d.trackingCount
          (some idx, { d.setEntry idx entry with trackingCount := count })
        else (some idx, d.setEntry idx { d.table idx with lastSeen := lastNow })

/-- The entry has been idle for longer than the retention window. -/
def AbuseDetector.stale (d : AbuseDetector) (now : ℤ) (idx : ℕ) : Bool :=
  (d.table idx).tenantId != [] && d.config.retentionWindowSeconds < now - (d.table idx).lastSeen

/-- `cleanup_old_entries`. -/
def cleanupOldEntries (now : ℤ) (d : AbuseDetector) : AbuseDetector :=
  if now - d.lastCleanup < cleanupIntervalSeconds then d
  else
    let removed := (List.range maxTrackingEntries).countP (d.stale now)
    { d with
      table := fun idx => if idx < maxTrackingEntries ∧ d.stale now idx then {} else d.table idx
      trackingCount := d.trackingCount - removed
      lastCleanup := now }

/-- The clock readings of one request: by the cleanup, by the two searches for the entry, by the update
and by the two halves of the pattern check. -/
structure AbuseClock where
  cleanup : ℤ
  trackFirst : ℤ
  trackLast : ℤ
  tracked : ℤ
  checkFirst : ℤ
  checkLast : ℤ
  checkNow : ℤ
  checkWindow : ℤ

/-- A further identity (key or address) in an entry: the first is stored, every differing one is
counted. -/
def noteIdentity (size : ℕ) (given stored : List UInt8) (count : UInt32) : List UInt8 × UInt32 :=
  if given = [] ∨ stored = given then (stored, count)
  else if stored = [] then (copyField size given, count)
  else (stored, count + 1)

/-- What `abuse_detection_track_request` writes into the entry. -/
def trackEntry (now : ℤ) (config : AbuseConfig) (apiKey : Option (List UInt8))
    (clientIp : List UInt8) (payloadSize : ℤ) (entry : AbuseEntry) : AbuseEntry :=
  let keys := noteIdentity 128 (apiKey.getD []) entry.apiKey entry.apiKeyCount
  let ips := noteIdentity 64 clientIp entry.clientIp entry.ipCount
  { entry with
    requestCount := entry.requestCount + 1
    lastSeen := now
    totalPayloadSize := entry.totalPayloadSize + UInt32.ofNat (unsignedInt payloadSize)
    apiKey := keys.1
    apiKeyCount := keys.2
    clientIp := ips.1
    ipCount := ips.2
    largePayloadCount :=
      if config.largePayloadThreshold < payloadSize then entry.largePayloadCount + 1
      else entry.largePayloadCount }

/-- `abuse_detection_track_request`. -/
def abuseTrackRequest (clock : AbuseClock) (tenantId : List UInt8) (apiKey : Option (List UInt8))
    (clientIp : List UInt8) (payloadSize : ℤ) (d : AbuseDetector) : AbuseDetector :=
  if !d.initialized || !d.config.enabled || tenantId == [] then d
  else
    let d := cleanupOldEntries clock.cleanup d
    match findOrCreateEntry clock.trackFirst clock.trackLast tenantId d with
    | (none, d) => d
    | (some idx, d) =>
        d.setEntry idx
          (trackEntry clock.tracked d.config apiKey clientIp payloadSize (d.table idx))

/-- The flood window of `abuse_detection_check_patterns`: restarted when it is over a minute old. -/
def floodWindow (now : ℤ) (entry : AbuseEntry) (d : AbuseDetector) : AbuseDetector :=
  let start := if d.multiTenantWindowStart = 0 then now else d.multiTenantWindowStart
  let d :=
    if 60 < now - start then
      { d with
        multiTenantWindowStart := now
        multiTenantTotalRequests := 0
        activeTenantsCount := UInt32.ofNat (unsignedInt d.trackingCount) }
    else
      { d with
        multiTenantWindowStart := start
        multiTenantTotalRequests := d.multiTenantTotalRequests + 1 }
  if entry.requestCount = 1 then { d with activeTenantsCount := d.activeTenantsCount + 1 } else d

/-- More active tenants than the threshold, with more than ten requests each on average. -/
def isFlood (d : AbuseDetector) : Bool :=
  UInt32.ofNat (unsignedInt d.config.multiTenantActiveThreshold) < d.activeTenantsCount &&
    10 < d.multiTenantTotalRequests / d.activeTenantsCount

/-- `abuse_detection_check_patterns`: "no abuse" is reported as an empty payload. -/
def abuseCheckPatterns (clock : AbuseClock) (tenantId : List UInt8) (payloadSize : ℤ)
    (d : AbuseDetector) : AbuseEventType × AbuseDetector :=
  if !d.initialized || !d.config.enabled || tenantId == [] then (.emptyPayload, d)
  else
    match findOrCreateEntry clock.checkFirst clock.checkLast tenantId d with
    | (none, d) => (.emptyPayload, d)
    | (some idx, d) =>
        let entry := d.table idx
        let duration := max 1 (clock.checkNow - entry.firstSeen)
        let rate := entry.requestCount * 60 / UInt32.ofNat (unsignedInt duration)
        let exceeds (n : UInt32) (threshold : ℤ) : Bool := UInt32.ofNat (unsignedInt threshold) < n
        if entry.requestCount = 0 then (.emptyPayload, d)
        else if exceeds rate d.config.targetedTenantRateThreshold then (.targetedTenant, d)
        else if exceeds entry.apiKeyCount d.config.evasionApiKeysThreshold ||
            exceeds entry.ipCount d.config.evasionIpsThreshold then (.rateLimitEvasion, d)
        else if 10 < entry.requestCount &&
            exceeds (entry.largePayloadCount * 100 / entry.requestCount)
              d.config.largePayloadRatioThreshold then (.heavyPayload, d)
        else if payloadSize < d.config.minPayloadSize then (.emptyPayload, d)
        else
          let d := floodWindow clock.checkWindow entry d
          (if isFlood d then .multiTenantFlood else .emptyPayload, d)

/-- `abuse_response_action_t`. -/
inductive AbuseResponseAction where
  | logOnly
  | rateLimit
  | temporaryBlock
  deriving DecidableEq, Repr

/-- `abuse_detection_get_response_action`, a stub. -/
def abuseGetResponseAction (_eventType : AbuseEventType) : AbuseResponseAction := .logOnly

/-- `abuse_detection_is_tenant_blocked`, a stub. -/
def abuseIsTenantBlocked (_tenantId : List UInt8) : Bool := false

end CGateway
