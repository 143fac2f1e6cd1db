import CGateway.Abuse.Patterns

/-! # What an entry remembers of its tenant

As long as the tracking table is a map, the entry of a tenant is a replay of the tenant's own calls: of all
calls since the one that took the slot. What the entry says of the past is then a fact about a list.

* `sinceCreated` — the calls of a tenant since its entry was created;
* `entryAfter` — the entry that these calls leave;
* `MapRun` — the runs in which the table is a map;
* `remembers_of_run` — in these the entry of a tenant is the replay of its calls;
* `examined_of_run` — and so is the entry that the pattern check looks at. -/

namespace CGateway

open Bytes CString Machine LinearProbing

/-! ### The calls of a tenant -/

/-- The cleanup of the call drops the entry of the tenant. -/
def DropsTenant (d : AbuseDetector) (call : AbuseCall) (tenant : TenantId) : Prop :=
  ∃ i, i < maxTrackingEntries ∧ Drops d call i ∧ d.keys i = tenant.bytes

instance (d : AbuseDetector) (call : AbuseCall) (tenant : TenantId) :
    Decidable (DropsTenant d call tenant) :=
  Nat.decidableExistsLT _

/-- The calls of a tenant since its entry was created, the latest first. -/
def sinceCreated (tenant : TenantId) : List AbuseRecord → List AbuseCall
  | [] => []
  | r :: past =>
      let kept := if DropsTenant r.before r.input tenant then [] else sinceCreated tenant past
      if r.input.tenant.bytes = tenant.bytes then r.input :: kept else kept

/-- The readings with which the search of a call marks the entry. -/
def AbuseCall.seen : AbuseCall → ℤ × ℤ
  | .track clock _ _ _ _ => (clock.trackFirst, clock.trackLast)
  | .check clock _ _ => (clock.checkFirst, clock.checkLast)

/-- What a search makes of the entry on which it ends: a new one of an entry that is free. -/
def reachEntry (seen : ℤ × ℤ) (tenantId : List UInt8) (entry : AbuseEntry) : AbuseEntry :=
  if entry.tenantId = [] then { tenantId := tenantId, firstSeen := seen.1, lastSeen := seen.2 }
  else { entry with lastSeen := seen.2 }

/-- What a call makes of the entry on which its search ends. -/
def AbuseCall.onEntry (config : AbuseConfig) (entry : AbuseEntry) (call : AbuseCall) : AbuseEntry :=
  match call with
  | .track clock tenant apiKey clientIp payloadSize =>
      trackEntry clock.tracked config apiKey clientIp payloadSize
        (reachEntry call.seen tenant.bytes entry)
  | .check _ tenant _ => reachEntry call.seen tenant.bytes entry

/-- The entry that some calls, the latest first, leave in a free slot. -/
def entryAfter (config : AbuseConfig) : List AbuseCall → AbuseEntry
  | [] => {}
  | call :: earlier => call.onEntry config (entryAfter config earlier)

/-! ### One call on the table -/

section Step

variable {d : AbuseDetector} {call : AbuseCall} {idx : ℕ}

/-- A call marks its entry with its tenant. -/
theorem tenantId_onEntry (config : AbuseConfig) (entry : AbuseEntry)
    (h : entry.tenantId = [] ∨ entry.tenantId = call.tenant.bytes) :
    (call.onEntry config entry).tenantId = call.tenant.bytes := by
  have hreach : (reachEntry call.seen call.tenant.bytes entry).tenantId = call.tenant.bytes := by
    unfold reachEntry
    split
    · rfl
    · next hstored => exact h.resolve_left hstored
  cases call with
  | track clock tenant apiKey clientIp payloadSize => exact hreach
  | check clock tenant payloadSize => exact hreach

/-- Nothing of a free entry is kept. -/
theorem onEntry_of_free (config : AbuseConfig) {entry : AbuseEntry} (h : entry.tenantId = []) :
    call.onEntry config entry = call.onEntry config {} := by
  have hreach : ∀ seen tenantId, reachEntry seen tenantId entry = reachEntry seen tenantId {} := by
    intro seen tenantId
    rw [reachEntry, reachEntry, if_pos h, if_pos rfl]
  cases call with
  | track clock tenant apiKey clientIp payloadSize =>
    rw [AbuseCall.onEntry, AbuseCall.onEntry, hreach]
  | check clock tenant payloadSize => exact hreach ..

/-- What `find_or_create_entry` does where its search ends, entry by entry. -/
theorem findOrCreateEntry_eq (tenant : TenantId) (seen : ℤ × ℤ) (h : d.slot? tenant.bytes = some idx) :
    ∃ d', findOrCreateEntry seen.1 seen.2 tenant.bytes d = (some idx, d') ∧
      d'.table = Function.update d.table idx (reachEntry seen tenant.bytes (d.table idx)) ∧ d'.config = d.config := by
  rw [findOrCreateEntry, if_neg tenant.nonempty, probeSlot_eq_slot?, h]
  dsimp only
  by_cases hfree : (d.table idx).tenantId = []
  · rw [if_pos hfree, reachEntry, if_pos hfree, tenant.copyField_eq]
    exact ⟨_, rfl, rfl, rfl⟩
  · rw [if_neg hfree, reachEntry, if_neg hfree]
    exact ⟨_, rfl, rfl, rfl⟩

/-- Cleanup does not touch the configuration. -/
theorem config_searched (d : AbuseDetector) (call : AbuseCall) : (d.searched call).config = d.config := by
  cases call with
  | check clock tenant payloadSize => rfl
  | track clock tenant apiKey clientIp payloadSize =>
    unfold AbuseDetector.searched cleanupOldEntries
    dsimp only
    split_ifs <;> rfl

/-- **A call in terms of the entries.** It changes the one on which its search ends. -/
theorem table_abuseStep (h : d.active = true) (hslot : (d.searched call).slot? call.tenant.bytes = some idx) :
    (abuseStep d call).1.table =
      Function.update (d.searched call).table idx
        (call.onEntry d.config ((d.searched call).table idx)) := by
  obtain ⟨d', hfind, htable, hconfig⟩ := findOrCreateEntry_eq call.tenant call.seen hslot
  rw [config_searched] at hconfig
  cases call with
  | check clock tenant payloadSize =>
    refine (table_abuseCheckPatterns h clock tenant payloadSize).trans ?_
    exact (congrArg (fun found => found.2.table) hfind).trans htable
  | track clock tenant apiKey clientIp payloadSize =>
    have hsearched : d.searched (.track clock tenant apiKey clientIp payloadSize) =
        cleanupOldEntries clock.cleanup d := if_pos h
    rw [hsearched] at hfind htable ⊢
    dsimp only [AbuseCall.seen, AbuseCall.tenant] at hfind
    simp only [abuseStep, abuseTrackRequest, abuse_guard, h, Bool.not_true, Bool.false_eq_true, if_false, hfind]
    show Function.update d'.table idx _ = _
    rw [htable, Function.update_self, Function.update_idem, hconfig]
    rfl

/-- Cleanup leaves the entries that it does not drop. -/
theorem table_searched {i : ℕ} (hkey : (d.searched call).keys i ≠ []) : (d.searched call).table i = d.table i := by
  cases call with
  | check clock tenant payloadSize => rfl
  | track clock tenant apiKey clientIp payloadSize =>
    unfold AbuseDetector.keys at hkey
    unfold AbuseDetector.searched cleanupOldEntries at hkey ⊢
    dsimp only at hkey ⊢
    split_ifs at hkey ⊢
    · rfl
    · dsimp only at hkey ⊢
      split_ifs at hkey ⊢
      · exact absurd rfl hkey
      · rfl
    · rfl

end Step

/-! ### Runs in which the table is a map -/

/-- A run of a detector that is switched on, in which no cleanup broke a probe chain and a slot was free
behind every call. -/
structure MapRun (now : ℤ) (config : AbuseConfig) (past : List AbuseRecord) (d : AbuseDetector) :
    Prop where
  run : AbuseRun now config past d
  enabled : config.enabled = true
  kept : ∀ r ∈ past, ChainsKept r.before r.input ∧ HasFree r.after

section Runs

variable {now : ℤ} {config : AbuseConfig} {past : List AbuseRecord} {d : AbuseDetector}

/-- No call changes the settings. -/
theorem settings_abuseStep (d : AbuseDetector) (call : AbuseCall) : (abuseStep d call).1.settings = d.settings := by
  cases call with
  | track clock tenant apiKey clientIp payloadSize => exact settings_abuseTrackRequest ..
  | check clock tenant payloadSize =>
    have hfound := settings_findOrCreateEntry clock.checkFirst clock.checkLast tenant.bytes d
    have hflood : ∀ now entry (d : AbuseDetector), (floodWindow now entry d).settings = d.settings := by
      intro now entry d
      unfold floodWindow
      dsimp only
      split_ifs <;> rfl
    unfold abuseStep abuseCheckPatterns
    dsimp only
    generalize findOrCreateEntry clock.checkFirst clock.checkLast tenant.bytes d = found at hfound ⊢
    obtain ⟨idx?, d'⟩ := found
    cases idx? with
    | none => split_ifs <;> first | rfl | exact hfound
    | some idx =>
      dsimp only
      split_ifs
      all_goals first | rfl | exact hfound | exact (hflood ..).trans hfound

/-- The settings of a run. -/
theorem settings_of_run (run : AbuseRun now config past d) : d.settings = (config, true) :=
  run.invariant (P := fun _ d => d.settings = (config, true)) rfl
    fun _ d call h => (settings_abuseStep d call).trans h

namespace MapRun

/-- In a run of a detector that is switched on, requests are tracked. -/
theorem active (h : MapRun now config past d) : d.active = true := by
  have hsettings := settings_of_run h.run
  rw [AbuseDetector.settings, Prod.mk.injEq] at hsettings
  rw [AbuseDetector.active, hsettings.1, hsettings.2, h.enabled]
  rfl

/-- The configuration is the one given at the start. -/
theorem config_eq (h : MapRun now config past d) : d.config = config := congrArg Prod.fst (settings_of_run h.run)

/-- **Induction on such runs.** -/
theorem invariant {P : List AbuseRecord → AbuseDetector → Prop}
    (hstart : P [] (abuseInit now config .atStart))
    (hstep : ∀ past d call, MapRun now config past d → ChainsKept d call →
      HasFree (abuseStep d call).1 → P past d → P (recordOf abuseStep d call :: past) (abuseStep d call).1)
    (h : MapRun now config past d) : P past d := by
  obtain ⟨run, henabled, hkept⟩ := h
  induction run with
  | start => exact hstart
  | @next past d run call ih =>
    rw [List.forall_mem_cons] at hkept
    exact hstep past d call ⟨run, henabled, hkept.2⟩ hkept.1.1 hkept.1.2 (ih hkept.2)

/-- The table is a map. -/
theorem isMap (h : MapRun now config past d) : IsMap d := by
  refine h.invariant (P := fun _ d => IsMap d) (isMap_abuseInit now config) ?_
  intro past d call hrun hchains hfree hmap
  exact ((mapKept_iff (named_of_run hrun.run) hmap call).mpr ⟨hchains, hfree⟩).after

end MapRun

/-! ### Between two cleanups -/

/-- The call makes a cleanup. -/
def AbuseCall.cleans (d : AbuseDetector) : AbuseCall → Bool
  | .track clock _ _ _ _ => cleanupIntervalSeconds ≤ clock.cleanup - d.lastCleanup
  | .check _ _ _ => false

/-- A call without a cleanup drops nothing. -/
theorem not_drops_of_not_cleans {call : AbuseCall} (h : call.cleans d = false) (i : ℕ) : ¬ Drops d call i := by
  have hsearched : d.searched call = d := by
    cases call with
    | check clock tenant payloadSize => rfl
    | track clock tenant apiKey clientIp payloadSize =>
      have hrecent : clock.cleanup - d.lastCleanup < cleanupIntervalSeconds := by
        simpa [AbuseCall.cleans] using h
      rw [AbuseDetector.searched, cleanupOldEntries, if_pos hrecent]
      exact ite_self d
  rintro ⟨hstored, hfree⟩
  rw [hsearched] at hfree
  exact hstored hfree

/-- A run without a cleanup in which one slot stays free. -/
theorem mapRun_of_not_cleans (run : AbuseRun now config past d) (henabled : config.enabled = true)
    {slot : ℕ} (hslot : slot < maxTrackingEntries)
    (h : ∀ r ∈ past, r.input.cleans r.before = false ∧ r.after.keys slot = []) : MapRun now config past d := by
  refine ⟨run, henabled, ?_⟩
  intro r hr
  refine ⟨?_, slot, hslot, (h r hr).2⟩
  intro _ _ _ _ p _
  exact not_drops_of_not_cleans (h r hr).1 p

/-- Without a cleanup all calls of a tenant are remembered. -/
theorem sinceCreated_of_not_cleans (tenant : TenantId) (h : ∀ r ∈ past, r.input.cleans r.before = false) :
    sinceCreated tenant past = (past.map (·.input)).filter fun call => call.tenant.bytes = tenant.bytes := by
  induction past with
  | nil => rfl
  | cons r past ih =>
    rw [List.forall_mem_cons] at h
    have hkept : ¬ DropsTenant r.before r.input tenant := by
      rintro ⟨i, -, hdrops, -⟩
      exact not_drops_of_not_cleans h.1 i hdrops
    rw [sinceCreated, if_neg hkept, ih h.2, List.map_cons, List.filter_cons]
    simp only [decide_eq_true_eq]

/-! ### An entry and its calls -/

/-- The table remembers these calls of the tenant, and no others. -/
structure Remembers (config : AbuseConfig) (tenant : TenantId) (calls : List AbuseCall)
    (d : AbuseDetector) : Prop where
  stored : ∀ i < maxTrackingEntries, d.keys i = tenant.bytes → d.table i = entryAfter config calls
  absent : (∀ i < maxTrackingEntries, d.keys i ≠ tenant.bytes) → calls = []

section Memory

variable {tenant : TenantId} {calls : List AbuseCall} {call : AbuseCall} {idx : ℕ}

/-- A stored tenant is where the search for it ends. -/
theorem eq_of_slot? (hfound : TenantsFound d) (hslot : d.slot? tenant.bytes = some idx) {i : ℕ}
    (hi : i < maxTrackingEntries) (hkey : d.keys i = tenant.bytes) : i = idx := by
  have hprobe := hfound i hi (hkey ▸ tenant.nonempty)
  rw [hkey] at hprobe
  exact Option.some.inj (hprobe.symm.trans hslot)

/-- Cleanup forgets a tenant or leaves its entry alone. -/
theorem Remembers.searched (h : Remembers config tenant calls d) (hmap : IsMap d) (call : AbuseCall) :
    Remembers config tenant (if DropsTenant d call tenant then [] else calls) (d.searched call) := by
  have hkept : ∀ i, (d.searched call).keys i = tenant.bytes → ¬ Drops d call i ∧ d.keys i = tenant.bytes := by
    intro i hkey
    have hstays : ¬ Drops d call i := fun hdrops => tenant.nonempty (hkey.symm.trans hdrops.2)
    rw [keys_searched] at hkey
    dsimp only at hkey
    rw [if_neg hstays] at hkey
    exact ⟨hstays, hkey⟩
  by_cases hdrops : DropsTenant d call tenant
  · rw [if_pos hdrops]
    obtain ⟨j, hj, hdropped, hkeyj⟩ := hdrops
    refine ⟨?_, fun _ => rfl⟩
    intro i hi hkey
    -- the tenant has one slot, and that is the one that was freed
    obtain ⟨hstays, hkeyi⟩ := hkept i hkey
    have hij := hmap.unique i hi j hj (hkeyi ▸ tenant.nonempty) (hkeyi.trans hkeyj.symm)
    exact absurd (hij ▸ hdropped) hstays
  · rw [if_neg hdrops]
    constructor
    · intro i hi hkey
      rw [table_searched (hkey ▸ tenant.nonempty)]
      exact h.stored i hi (hkept i hkey).2
    · intro hnone
      refine h.absent ?_
      intro i hi hkey
      have hstays : ¬ Drops d call i := fun hdropped => hdrops ⟨i, hi, hdropped, hkey⟩
      refine hnone i hi ?_
      rw [keys_searched]
      dsimp only
      rwa [if_neg hstays]

/-- A call of the tenant makes of the entry on which its search ends the replay with the call added. -/
theorem Remembers.onEntry (h : Remembers config tenant calls d) (hfound : TenantsFound d)
    (hslot : d.slot? tenant.bytes = some idx) (call : AbuseCall) :
    call.onEntry config (d.table idx) = entryAfter config (call :: calls) := by
  obtain ⟨hidx, hfree | hown⟩ := keys_of_slot? hslot
  · -- the search for a tenant that is stored would not end on a free slot
    have hcalls : calls = [] := by
      refine h.absent ?_
      intro i hi hkey
      obtain rfl := eq_of_slot? hfound hslot hi hkey
      exact tenant.nonempty (hkey.symm.trans hfree)
    rw [hcalls]
    exact onEntry_of_free config hfree
  · rw [h.stored idx hidx hown]
    rfl

/-- A call on the table is remembered of its own tenant only. -/
theorem Remembers.step (h : Remembers config tenant calls (d.searched call)) (hactive : d.active = true)
    (hconfig : d.config = config) (hfound : TenantsFound (d.searched call))
    (hslot : (d.searched call).slot? call.tenant.bytes = some idx) :
    Remembers config tenant (if call.tenant.bytes = tenant.bytes then call :: calls else calls)
      (abuseStep d call).1 := by
  have htable := table_abuseStep hactive hslot
  rw [hconfig] at htable
  obtain ⟨hidx, hends⟩ := keys_of_slot? hslot
  have hself : (abuseStep d call).1.keys idx = call.tenant.bytes := by
    rw [AbuseDetector.keys, htable, Function.update_self]
    exact tenantId_onEntry config _ hends
  have hother : ∀ i ≠ idx, (abuseStep d call).1.table i = (d.searched call).table i := by
    intro i hi
    rw [htable, Function.update_of_ne hi]
  have hotherKey : ∀ i ≠ idx, (abuseStep d call).1.keys i = (d.searched call).keys i := by
    intro i hi
    exact congrArg AbuseEntry.tenantId (hother i hi)
  by_cases hcaller : call.tenant.bytes = tenant.bytes
  · rw [if_pos hcaller]
    rw [hcaller] at hslot hself
    constructor
    · intro i hi hkey
      have hislot : i = idx := by
        by_contra hne
        exact hne (eq_of_slot? hfound hslot hi ((hotherKey i hne).symm.trans hkey))
      rw [hislot, htable, Function.update_self]
      exact h.onEntry hfound hslot call
    · intro hnone
      exact absurd hself (hnone idx hidx)
  · rw [if_neg hcaller]
    constructor
    · intro i hi hkey
      have hne : i ≠ idx := by
        rintro rfl
        exact hcaller (hself.symm.trans hkey)
      rw [hother i hne]
      exact h.stored i hi ((hotherKey i hne).symm.trans hkey)
    · intro hnone
      refine h.absent ?_
      intro i hi hkey
      have hne : i ≠ idx := by
        rintro rfl
        rcases hends with hfree | hown
        · exact tenant.nonempty (hkey.symm.trans hfree)
        · exact hcaller (hown.symm.trans hkey)
      exact hnone i hi ((hotherKey i hne).trans hkey)

end Memory

/-- **The entry of a tenant is the replay of its calls since the entry was created.** -/
theorem remembers_of_run (h : MapRun now config past d) (tenant : TenantId) :
    Remembers config tenant (sinceCreated tenant past) d := by
  refine h.invariant (P := fun past d => Remembers config tenant (sinceCreated tenant past) d) ?_ ?_
  · refine ⟨?_, fun _ => rfl⟩
    intro i _ hkey
    exact absurd hkey.symm tenant.nonempty
  · intro past d call hrun hchains _ hmemory
    have hnamed := named_of_run hrun.run
    have hsearched := (isMap_searched_iff hnamed hrun.isMap call).mpr hchains
    obtain ⟨idx, hslot⟩ := Option.ne_none_iff_exists'.mp
      (hsearched.hasFree.slot?_ne_none call.tenant.bytes)
    exact (hmemory.searched hrun.isMap call).step hrun.active hrun.config_eq
      (hsearched.tenantsFound (hnamed.searched call)) hslot

/-- **The entry that the pattern check looks at.** -/
theorem examined_of_run (h : MapRun now config past d) (clock : AbuseClock) (tenant : TenantId) (payloadSize : ℤ) :
    ∃ d', examined clock tenant.bytes d =
        some (entryAfter config (.check clock tenant payloadSize :: sinceCreated tenant past), d') ∧
      d'.config = config := by
  have hfound := h.isMap.tenantsFound (named_of_run h.run)
  obtain ⟨idx, hslot⟩ := Option.ne_none_iff_exists'.mp (h.isMap.hasFree.slot?_ne_none tenant.bytes)
  obtain ⟨d', hfind, htable, hconfig⟩ := findOrCreateEntry_eq tenant (clock.checkFirst, clock.checkLast) hslot
  refine ⟨d', ?_, hconfig.trans h.config_eq⟩
  rw [examined, hfind]
  dsimp only [Option.map_some]
  rw [htable, Function.update_self]
  exact congrArg (fun entry => some (entry, d'))
    ((remembers_of_run h tenant).onEntry hfound hslot (.check clock tenant payloadSize))

end Runs

/-! ### What a replay leaves -/

/-- Searching for an entry leaves what it counts. -/
def AbuseEntry.counters (entry : AbuseEntry) : UInt32 × (List UInt8 × UInt32) × (List UInt8 × UInt32) :=
  (entry.requestCount, (entry.apiKey, entry.apiKeyCount), (entry.clientIp, entry.ipCount))

section Replay

variable (config : AbuseConfig)

/-- An entry that was reached has a tenant. -/
theorem tenantId_entryAfter_ne_nil {calls : List AbuseCall} (h : calls ≠ []) :
    (entryAfter config calls).tenantId ≠ [] := by
  have hreach : ∀ seen (tenant : TenantId) entry, (reachEntry seen tenant.bytes entry).tenantId ≠ [] := by
    intro seen tenant entry
    unfold reachEntry
    split
    · exact tenant.nonempty
    · next hstored => exact hstored
  cases calls with
  | nil => exact absurd rfl h
  | cons call earlier =>
    cases call with
    | track clock tenant apiKey clientIp payloadSize => exact hreach _ tenant _
    | check clock tenant payloadSize => exact hreach _ tenant _

/-- A search counts nothing. -/
theorem counters_reachEntry (seen : ℤ × ℤ) (tenantId : List UInt8) (calls : List AbuseCall) :
    (reachEntry seen tenantId (entryAfter config calls)).counters = (entryAfter config calls).counters := by
  cases calls with
  | nil => rfl
  | cons call earlier =>
    rw [reachEntry, if_neg (tenantId_entryAfter_ne_nil config (List.cons_ne_nil call earlier))]
    rfl

/-- The first call of a tenant is the one at which it was first seen. -/
theorem firstSeen_entryAfter (later : List AbuseCall) (first : AbuseCall) :
    (entryAfter config (later ++ [first])).firstSeen = first.seen.1 := by
  induction later with
  | nil => cases first <;> rfl
  | cons call later ih =>
    have hne : (entryAfter config (later ++ [first])).tenantId ≠ [] := tenantId_entryAfter_ne_nil config (by simp)
    have hreach : ∀ seen tenantId,
        (reachEntry seen tenantId (entryAfter config (later ++ [first]))).firstSeen = first.seen.1 := by
      intro seen tenantId
      rw [reachEntry, if_neg hne]
      exact ih
    rw [List.cons_append]
    cases call with
    | track clock tenant apiKey clientIp payloadSize => exact hreach ..
    | check clock tenant payloadSize => exact hreach ..

end Replay

end CGateway
