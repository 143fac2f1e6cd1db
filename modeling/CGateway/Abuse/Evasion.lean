import Mathlib.Data.List.Dedup
import CGateway.Abuse.TenantHistory

/-! # Rate limit evasion

An entry has room for one API key and one client address. The first of each is stored, and every later
request with another one is counted, whether its key or address is new or not. So the counters are compared
with thresholds for distinct keys and addresses but count requests.

* `others` — the requests with another identity than the first one;
* `identityAfter_eq` — what the source keeps of a sequence of identities;
* `apiKeyCount_entryAfter`, `ipCount_entryAfter` — what an entry counts;
* `evasion_of_distinct` — the answer stands for many distinct identities when no more than one request came
  back to an identity that was counted already. -/

namespace CGateway

open Bytes CString Machine

/-! ### Identities -/

/-- How many identities, the latest first, differ from the first one that was given. -/
def others (ids : List (List UInt8)) : ℕ := ids.countP fun id => ids.getLast? ≠ some id

/-- How many identities there are. -/
def distinct (ids : List (List UInt8)) : ℕ := ids.dedup.length

/-- The stored identity and the counter when the source has been given some identities. -/
def identityAfter (size : ℕ) : List (List UInt8) → List UInt8 × UInt32
  | [] => ([], 0)
  | given :: earlier =>
      noteIdentity size given (identityAfter size earlier).1 (identityAfter size earlier).2

/-- An identity that is given and stored whole. -/
structure WholeIdentity (size : ℕ) (id : List UInt8) : Prop where
  nonempty : id ≠ []
  fits : id.length < size
  noNul : 0 ∉ id

instance (size : ℕ) : DecidablePred (WholeIdentity size) := fun id =>
  decidable_of_iff (id ≠ [] ∧ id.length < size ∧ 0 ∉ id)
    ⟨fun h => ⟨h.1, h.2.1, h.2.2⟩, fun h => ⟨h.nonempty, h.fits, h.noNul⟩⟩

/-- Such an identity is stored as it is. -/
theorem WholeIdentity.copyField_eq {size : ℕ} {id : List UInt8} (h : WholeIdentity size id) :
    copyField size id = id := by
  rw [copyField, cstr_of_no_zero h.noNul]
  exact List.take_of_length_le (Nat.le_sub_one_of_lt h.fits)

/-- **What the source keeps of identities.** The first one, and how many requests differ from it. -/
theorem identityAfter_eq {size : ℕ} (later : List (List UInt8)) {first : List UInt8}
    (hfirst : WholeIdentity size first) (hlater : ∀ id ∈ later, id ≠ []) :
    identityAfter size (later ++ [first]) = (first, UInt32.ofNat (later.countP fun id => first ≠ id)) := by
  induction later with
  | nil =>
    have hne : ¬ (first = [] ∨ [] = first) := fun h => hfirst.nonempty (h.elim id Eq.symm)
    show noteIdentity size first [] 0 = _
    rw [noteIdentity, if_neg hne, if_pos rfl, hfirst.copyField_eq]
    rfl
  | cons id later ih =>
    rw [List.forall_mem_cons] at hlater
    rw [List.cons_append, identityAfter, ih hlater.2, noteIdentity, List.countP_cons]
    by_cases hsame : first = id
    · rw [if_pos (.inr hsame)]
      simp [hsame]
    · have hother : ¬ (id = [] ∨ first = id) := not_or.mpr ⟨hlater.1, hsame⟩
      rw [if_neg hother, if_neg hfirst.nonempty]
      simp [hsame, UInt32.ofNat_add]

/-- The counter, for any sequence of identities. -/
theorem identityAfter_snd {size : ℕ} {ids : List (List UInt8)} (h : ∀ id ∈ ids, WholeIdentity size id) :
    (identityAfter size ids).2 = UInt32.ofNat (others ids) := by
  cases ids using List.reverseRecOn with
  | nil => rfl
  | append_singleton later first =>
    rw [List.forall_mem_append, List.forall_mem_singleton] at h
    rw [identityAfter_eq later h.2 fun id hid => (h.1 id hid).nonempty, others]
    simp [List.countP_append]

/-- A request without an identity changes neither. -/
theorem identityAfter_optional (size : ℕ) (given : Option (List UInt8)) (earlier : List (List UInt8)) :
    noteIdentity size (given.getD []) (identityAfter size earlier).1 (identityAfter size earlier).2 =
      identityAfter size ((given.filter (· ≠ [])).toList ++ earlier) := by
  have hnone : ∀ stored count, noteIdentity size [] stored count = (stored, count) := by
    intro stored count
    rw [noteIdentity, if_pos (.inl rfl)]
  cases given with
  | none => exact hnone ..
  | some id =>
    by_cases hempty : id = []
    · subst hempty
      exact hnone ..
    · simp [Option.filter, hempty, identityAfter]

/-! ### The identities of a tenant -/

/-- The API key that a tracked request comes with. -/
def AbuseCall.apiKey? : AbuseCall → Option (List UInt8)
  | .track _ _ apiKey _ _ => apiKey.filter (· ≠ [])
  | .check _ _ _ => none

/-- The client address that a tracked request comes with. -/
def AbuseCall.clientIp? : AbuseCall → Option (List UInt8)
  | .track _ _ _ clientIp _ => (some clientIp).filter (· ≠ [])
  | .check _ _ _ => none

/-- The API keys of some calls. -/
def apiKeysOf (calls : List AbuseCall) : List (List UInt8) := calls.filterMap AbuseCall.apiKey?

/-- The client addresses of some calls. -/
def clientIpsOf (calls : List AbuseCall) : List (List UInt8) := calls.filterMap AbuseCall.clientIp?

section Entries

variable (config : AbuseConfig) (calls : List AbuseCall)

/-- **An entry keeps the keys and the addresses of its calls** as the source keeps identities. -/
theorem identities_entryAfter :
    (entryAfter config calls).counters.2 =
      (identityAfter 128 (apiKeysOf calls), identityAfter 64 (clientIpsOf calls)) := by
  induction calls with
  | nil => rfl
  | cons call earlier ih =>
    cases call with
    | check clock tenant payloadSize =>
      exact (congrArg Prod.snd (counters_reachEntry config _ _ earlier)).trans ih
    | track clock tenant apiKey clientIp payloadSize =>
      have hcounters := (congrArg Prod.snd (counters_reachEntry config
        (clock.trackFirst, clock.trackLast) tenant.bytes earlier)).trans ih
      obtain ⟨hkeys, hips⟩ := Prod.mk.inj hcounters
      obtain ⟨hkey, hkeyCount⟩ := Prod.mk.inj (hkeys.trans Prod.mk.eta.symm)
      obtain ⟨hip, hipCount⟩ := Prod.mk.inj (hips.trans Prod.mk.eta.symm)
      have happend : ∀ f : AbuseCall → Option (List UInt8), ∀ call,
          (call :: earlier).filterMap f = (f call).toList ++ earlier.filterMap f := by
        intro f call
        rw [List.filterMap_cons]
        cases f call <;> rfl
      rw [apiKeysOf, clientIpsOf, happend, happend]
      refine Prod.ext ?_ ?_
      · refine Eq.trans ?_ (identityAfter_optional 128 apiKey (apiKeysOf earlier))
        rw [← hkey, ← hkeyCount]
        rfl
      · refine Eq.trans ?_ (identityAfter_optional 64 (some clientIp) (clientIpsOf earlier))
        rw [← hip, ← hipCount]
        rfl

/-- The key counter of an entry. -/
theorem apiKeyCount_entryAfter (hkeys : ∀ key ∈ apiKeysOf calls, WholeIdentity 128 key) :
    (entryAfter config calls).apiKeyCount = UInt32.ofNat (others (apiKeysOf calls)) :=
  (congrArg (fun counters => counters.1.2) (identities_entryAfter config calls)).trans
    (identityAfter_snd hkeys)

/-- The address counter of an entry. -/
theorem ipCount_entryAfter (hips : ∀ ip ∈ clientIpsOf calls, WholeIdentity 64 ip) :
    (entryAfter config calls).ipCount = UInt32.ofNat (others (clientIpsOf calls)) :=
  (congrArg (fun counters => counters.2.2) (identities_entryAfter config calls)).trans
    (identityAfter_snd hips)

end Entries

/-- A counter that wraps is no more than the number it counts. -/
theorem lt_of_exceedsThreshold {threshold : ℤ} (hint : threshold < 2 ^ 31) {n : ℕ}
    (h : exceedsThreshold (UInt32.ofNat n) threshold = true) : threshold < n := by
  by_cases hneg : threshold < 0
  · omega
  · have hlt := (exceedsThreshold_iff (by omega) hint _).mp h
    have hmod : (UInt32.ofNat n).toNat ≤ n := by
      rw [UInt32.toNat_ofNat']
      exact Nat.mod_le ..
    omega

/-- **Evasion means many identities, if few requests came back.** The requests of a tenant since its entry
was created have keys and addresses that are stored whole. Those with another key than the first are no more
than the distinct keys, and likewise for the addresses. Then the tenant is said to evade its limit only if
it came with more distinct keys, or with more distinct addresses, than the configuration allows. -/
theorem evasion_of_distinct {now : ℤ} {config : AbuseConfig} {past : List AbuseRecord} {d : AbuseDetector}
    (h : MapRun now config past d) (clock : AbuseClock) (tenant : TenantId) (payloadSize : ℤ)
    (hints : config.evasionApiKeysThreshold < 2 ^ 31 ∧ config.evasionIpsThreshold < 2 ^ 31)
    (hkeys : ∀ key ∈ apiKeysOf (sinceCreated tenant past), WholeIdentity 128 key)
    (hips : ∀ ip ∈ clientIpsOf (sinceCreated tenant past), WholeIdentity 64 ip)
    (hfewKeys : others (apiKeysOf (sinceCreated tenant past)) ≤ distinct (apiKeysOf (sinceCreated tenant past)))
    (hfewIps : others (clientIpsOf (sinceCreated tenant past)) ≤ distinct (clientIpsOf (sinceCreated tenant past)))
    (hevasion : (abuseStep d (.check clock tenant payloadSize)).2 = some .rateLimitEvasion) :
    config.evasionApiKeysThreshold < distinct (apiKeysOf (sinceCreated tenant past)) ∨
      config.evasionIpsThreshold < distinct (clientIpsOf (sinceCreated tenant past)) := by
  have hevent : (abuseCheckPatterns clock tenant.bytes payloadSize d).1 = .rateLimitEvasion :=
    Option.some.inj hevasion
  obtain ⟨-, entry, d', hexamined, hpattern⟩ := pattern_of_event clock payloadSize
    (show (abuseCheckPatterns clock tenant.bytes payloadSize d).1 ≠ .emptyPayload by rw [hevent]; nofun)
  obtain ⟨d'', hreplay, hconfig⟩ := examined_of_run h clock tenant payloadSize
  obtain ⟨rfl, rfl⟩ := Prod.mk.inj (Option.some.inj (hexamined.symm.trans hreplay))
  rw [hevent] at hpattern
  -- the check itself comes without a key and without an address
  have hkeyCount := apiKeyCount_entryAfter config (.check clock tenant payloadSize :: _) hkeys
  have hipCount := ipCount_entryAfter config (.check clock tenant payloadSize :: _) hips
  dsimp only [AbusePattern] at hpattern
  rw [hconfig, Bool.or_eq_true, hkeyCount, hipCount] at hpattern
  rcases hpattern with hover | hover
  · have hlt := lt_of_exceedsThreshold hints.1 hover
    exact .inl (lt_of_lt_of_le hlt (Int.ofNat_le.mpr hfewKeys))
  · have hlt := lt_of_exceedsThreshold hints.2 hover
    exact .inr (lt_of_lt_of_le hlt (Int.ofNat_le.mpr hfewIps))

/-- A request of the tenant `aq` with an API key, tracked at the start. -/
def requestWithKey (key : String) : AbuseCall := .track (.still 0) tenantAq (some (ascii key)) [] 100

/-- Half a minute later the tenant is checked. -/
def laterCheck : AbuseCall := .check (.still 30) tenantAq 100

/-- Requests with keys, from the start of the detector on. -/
def requestsWithKeys (config : AbuseConfig) (keys : List String) : List AbuseRecord × AbuseDetector :=
  exec abuseStep (abuseInit 0 config .atStart) (keys.map requestWithKey)

/-- Three keys, where one is allowed. -/
theorem evasion_three_keys :
    let config := { enabledAbuseConfig with evasionApiKeysThreshold := 1 }
    let run := requestsWithKeys config ["k1", "k2", "k3"]
    (abuseStep run.2 laterCheck).2 = some .rateLimitEvasion ∧
      (config.evasionApiKeysThreshold < distinct (apiKeysOf (sinceCreated tenantAq run.1)) ∨
        config.evasionIpsThreshold < distinct (clientIpsOf (sinceCreated tenantAq run.1))) := by
  intro config run
  have hcalls : ∀ r ∈ run.1, r.input.cleans r.before = false ∧ r.after.keys 0 = [] := by
    decide
  have hevasion : (abuseStep run.2 laterCheck).2 = some .rateLimitEvasion := by decide
  have hmap : MapRun 0 config run.1 run.2 :=
    mapRun_of_not_cleans (run_exec _ _ _) rfl (by decide) hcalls
  have hremembered := sinceCreated_of_not_cleans tenantAq fun r hr => (hcalls r hr).1
  have hkeys : apiKeysOf (sinceCreated tenantAq run.1) = [ascii "k3", ascii "k2", ascii "k1"] := by
    rw [hremembered]
    decide
  have hips : clientIpsOf (sinceCreated tenantAq run.1) = [] := by
    rw [hremembered]
    decide
  refine ⟨hevasion, evasion_of_distinct hmap (.still 30) tenantAq 100 (by decide) ?_ ?_ ?_ ?_ hevasion⟩
  · rw [hkeys]
    decide
  · rw [hips]
    nofun
  · rw [hkeys]
    decide
  · rw [hips]
    decide

/-- **Two keys are taken for more than ten.** One request with a first key and eleven with a second. -/
theorem evasion_two_keys :
    let run := requestsWithKeys enabledAbuseConfig ("k1" :: List.replicate 11 "k2")
    (abuseStep run.2 laterCheck).2 = some .rateLimitEvasion ∧
      distinct (apiKeysOf (run.1.map (·.input))) = 2 ∧ distinct (clientIpsOf (run.1.map (·.input))) = 0 := by
  decide

end CGateway
