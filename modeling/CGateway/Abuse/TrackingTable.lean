import Mathlib.Data.Fintype.Pigeonhole
import CGateway.Abuse.AbuseDetection
import CGateway.Lib.Machine
import CGateway.Lib.Probing

/-! # The abuse tracking table as a map

`find_or_create_entry` probes linearly and takes the first free slot for a new tenant. Two things break
what it is for. `cleanup_old_entries` frees slots in the middle of probe chains, so that a tenant behind
such a slot gets a second entry. And in a full table an unknown tenant is given the slot it hashes to, with
whoever is in it.

* `IsMap` — what the table is for, in the words of `find_or_create_entry`;
* `isMap_iff` — a table is a map just when its tenants are found and a slot is free;
* `keys_abuseStep` — a call frees slots and then stores its tenant;
* `tracking_table_iff` — the runs in which the table is a map throughout. -/

namespace CGateway

open Bytes CString Machine LinearProbing

/-! ### Calls -/

/-- A tenant id that is stored whole: a C string of 1 to 63 bytes. -/
structure TenantId where
  bytes : List UInt8
  nonempty : bytes ≠ []
  fits : bytes.length ≤ 63
  noNul : 0 ∉ bytes

/-- A call on the detector. -/
inductive AbuseCall where
  | track (clock : AbuseClock) (tenant : TenantId) (apiKey : Option (List UInt8))
      (clientIp : List UInt8) (payloadSize : ℤ)
  | check (clock : AbuseClock) (tenant : TenantId) (payloadSize : ℤ)

/-- The tenant of a call. -/
def AbuseCall.tenant : AbuseCall → TenantId
  | .track _ tenant _ _ _ => tenant
  | .check _ tenant _ => tenant

/-- One call; the pattern check answers an event. -/
def abuseStep (d : AbuseDetector) : AbuseCall → AbuseDetector × Option AbuseEventType
  | .track clock tenant apiKey clientIp payloadSize =>
      (abuseTrackRequest clock tenant.bytes apiKey clientIp payloadSize d, none)
  | .check clock tenant payloadSize =>
      ((abuseCheckPatterns clock tenant.bytes payloadSize d).2,
        some (abuseCheckPatterns clock tenant.bytes payloadSize d).1)

/-- A call as the history keeps it. -/
abbrev AbuseRecord := Record AbuseDetector AbuseCall (Option AbuseEventType)

/-- A run from `abuse_detection_init`. -/
abbrev AbuseRun (now : ℤ) (config : AbuseConfig) (past : List AbuseRecord) (d : AbuseDetector) : Prop :=
  Run abuseStep (abuseInit now config .atStart) past d

/-- The detector that `find_or_create_entry` is called on: a tracked request makes its cleanup first. -/
def AbuseDetector.searched (d : AbuseDetector) : AbuseCall → AbuseDetector
  | .track clock _ _ _ _ =>
      if d.initialized && d.config.enabled then cleanupOldEntries clock.cleanup d else d
  | .check _ _ _ => d

/-! ### What the table is for -/

/-- The tenants of the slots, `[]` for a free one. -/
def AbuseDetector.keys (d : AbuseDetector) : ℕ → List UInt8 := fun i => (d.table i).tenantId

/-- **The table is a map.** A tenant is in at most one slot, and `find_or_create_entry` returns the slot of
its tenant: the one that holds it, if there is one. -/
structure IsMap (d : AbuseDetector) : Prop where
  unique : ∀ i < maxTrackingEntries, ∀ j < maxTrackingEntries, d.keys i ≠ [] → d.keys i = d.keys j →
    i = j
  finds : ∀ (tenant : TenantId) (firstNow lastNow : ℤ),
    ∃ idx, (findOrCreateEntry firstNow lastNow tenant.bytes d).1 = some idx ∧
      (findOrCreateEntry firstNow lastNow tenant.bytes d).2.keys idx = tenant.bytes ∧
      ∀ i < maxTrackingEntries, d.keys i = tenant.bytes → idx = i

/-- Some slot is free. -/
def HasFree (d : AbuseDetector) : Prop := ∃ i < maxTrackingEntries, d.keys i = []

/-- Only whole tenant ids are stored. -/
def Named (d : AbuseDetector) : Prop :=
  ∀ i, d.keys i ≠ [] → ∃ tenant : TenantId, d.keys i = tenant.bytes

/-- Every tenant that is stored is found. -/
abbrev TenantsFound (d : AbuseDetector) : Prop := Found maxTrackingEntries [] hashTenant d.keys

/-- The cleanup of the call drops the entry in slot `i`. -/
def Drops (d : AbuseDetector) (call : AbuseCall) (i : ℕ) : Prop :=
  d.keys i ≠ [] ∧ (d.searched call).keys i = []

instance (d : AbuseDetector) (call : AbuseCall) : DecidablePred (Drops d call) :=
  fun _ => inferInstanceAs (Decidable (_ ∧ _))

/-- The cleanup of the call drops no entry that is searched before one it keeps. -/
def ChainsKept (d : AbuseDetector) (call : AbuseCall) : Prop :=
  ∀ i < maxTrackingEntries, d.keys i ≠ [] → ¬ Drops d call i →
    ∀ p, Before maxTrackingEntries (hashTenant (d.keys i)) i p → ¬ Drops d call p

/-- Behind its cleanup the call changes no entry of another tenant. -/
def OthersKept (r : AbuseRecord) : Prop :=
  ∀ i, (r.before.searched r.input).keys i ≠ [] →
    (r.before.searched r.input).keys i ≠ r.input.tenant.bytes →
      r.after.table i = (r.before.searched r.input).table i

/-- The table was a map at the search of the call and behind it, and the call kept to its tenant. -/
structure MapKept (r : AbuseRecord) : Prop where
  searched : IsMap (r.before.searched r.input)
  after : IsMap r.after
  others : OthersKept r

/-! ### The search -/

section Search

variable {d : AbuseDetector}

/-- A tenant hashes to a slot. -/
theorem hashTenant_lt (tenantId : List UInt8) : hashTenant tenantId < maxTrackingEntries := Nat.mod_lt _ (by decide)

/-- A stored id is the id. -/
theorem TenantId.copyField_eq (tenant : TenantId) : copyField 64 tenant.bytes = tenant.bytes := by
  rw [copyField, cstr_of_no_zero tenant.noNul]
  exact List.take_of_length_le tenant.fits

/-- The search of the source is a probe. -/
theorem probeSlot_eq_probe (table : ℕ → AbuseEntry) (tenantId : List UInt8) (fuel idx : ℕ) :
    probeSlot table tenantId fuel idx =
      probe maxTrackingEntries [] (fun i => (table i).tenantId) tenantId fuel idx := by
  induction fuel generalizing idx with
  | zero => rfl
  | succ fuel ih => rw [probeSlot, probe, ih]

/-- Writing an entry writes its tenant. -/
theorem keys_setEntry (d : AbuseDetector) (idx : ℕ) (entry : AbuseEntry) :
    (d.setEntry idx entry).keys = Function.update d.keys idx entry.tenantId := by
  funext i
  show (Function.update d.table idx entry i).tenantId = _
  by_cases hi : i = idx
  · subst hi
    rw [Function.update_self, Function.update_self]
  · rw [Function.update_of_ne hi, Function.update_of_ne hi]
    rfl

/-- The slot at which the search for a tenant ends. -/
def AbuseDetector.slot? (d : AbuseDetector) (tenantId : List UInt8) : Option ℕ :=
  probe maxTrackingEntries [] d.keys tenantId maxTrackingEntries (hashTenant tenantId)

theorem probeSlot_eq_slot? (tenantId : List UInt8) :
    probeSlot d.table tenantId maxTrackingEntries (hashTenant tenantId) = d.slot? tenantId := probeSlot_eq_probe ..

/-- Where the search ends, on a slot that is free or the tenant's. -/
theorem keys_of_slot? {tenantId : List UInt8} {idx : ℕ} (h : d.slot? tenantId = some idx) :
    idx < maxTrackingEntries ∧ (d.keys idx = [] ∨ d.keys idx = tenantId) := by
  obtain ⟨k, -, hslot, hends, -⟩ := (probe_eq_some_iff (hashTenant_lt tenantId)).mp h
  exact ⟨hslot ▸ Nat.mod_lt _ (by decide), hends⟩

/-- A search in a table with a free slot ends. -/
theorem HasFree.slot?_ne_none (h : HasFree d) (tenantId : List UInt8) : d.slot? tenantId ≠ none := by
  intro hnone
  obtain ⟨i, hi, hfree⟩ := h
  exact ((probe_eq_none_iff (hashTenant_lt tenantId)).mp hnone i hi).1 hfree

/-- In a table full of other tenants the source returns the slot that the tenant hashes to. -/
theorem findOrCreateEntry_of_none (tenant : TenantId) (firstNow lastNow : ℤ) (h : d.slot? tenant.bytes = none) :
    findOrCreateEntry firstNow lastNow tenant.bytes d = (some (hashTenant tenant.bytes), d) := by
  rw [findOrCreateEntry, if_neg tenant.nonempty, probeSlot_eq_slot?, h]

/-- What `find_or_create_entry` does where its search ends: the tenant is in that slot, all others are as
they were. -/
theorem findOrCreateEntry_of_some (tenant : TenantId) (firstNow lastNow : ℤ) {idx : ℕ}
    (h : d.slot? tenant.bytes = some idx) :
    (findOrCreateEntry firstNow lastNow tenant.bytes d).1 = some idx ∧
      (findOrCreateEntry firstNow lastNow tenant.bytes d).2.keys =
        Function.update d.keys idx tenant.bytes ∧
      ∀ i ≠ idx, (findOrCreateEntry firstNow lastNow tenant.bytes d).2.table i = d.table i := by
  rw [findOrCreateEntry, if_neg tenant.nonempty, probeSlot_eq_slot?, h]
  dsimp only
  by_cases hfree : (d.table idx).tenantId = []
  · rw [if_pos hfree]
    refine ⟨rfl, ?_, fun i hi => Function.update_of_ne hi ..⟩
    refine (keys_setEntry d idx _).trans ?_
    rw [tenant.copyField_eq]
  · rw [if_neg hfree]
    have hown : d.keys idx = tenant.bytes := (keys_of_slot? h).2.resolve_left hfree
    refine ⟨rfl, ?_, fun i hi => Function.update_of_ne hi ..⟩
    rw [← hown]
    exact keys_setEntry d idx _

end Search

/-! ### Maps -/

section Maps

variable {d : AbuseDetector}

/-- The decimal numbers up to the number of slots are tenant ids. -/
def numberedTenant (n : Fin (maxTrackingEntries + 1)) : TenantId where
  bytes := decimalNat n
  nonempty := by
    rw [decimalNat, Ne, List.map_eq_nil_iff]
    exact Nat.toDigits_ne_nil
  fits := by
    have hn : (n : ℕ) < 10 ^ 63 := n.isLt.trans_le (by decide)
    exact length_decimalNat_le (by decide) hn
  noNul := notMem_decimalNat (.inl (by decide)) n

/-- Some tenant is in no slot: there are more tenant ids than slots. -/
theorem exists_tenant_absent (d : AbuseDetector) :
    ∃ tenant : TenantId, ∀ i < maxTrackingEntries, d.keys i ≠ tenant.bytes := by
  by_contra hall
  push Not at hall
  choose slot hlt hkey using fun n => hall (numberedTenant n)
  obtain ⟨m, n, hne, heq⟩ := Fintype.exists_ne_map_eq_of_card_lt
    (fun n => (⟨slot n, hlt n⟩ : Fin maxTrackingEntries)) (by simp)
  refine hne (Fin.ext (decimalNat_injective ?_))
  have hslot : slot m = slot n := Fin.mk.inj heq
  have hm := hkey m
  rw [hslot, hkey n] at hm
  exact hm.symm

/-- In a map every tenant is found in its slot. -/
theorem IsMap.tenantsFound (hnamed : Named d) (h : IsMap d) : TenantsFound d := by
  intro i hi hstored
  obtain ⟨tenant, hkey⟩ := hnamed i hstored
  obtain ⟨idx, hfirst, -, hslot⟩ := h.finds tenant 0 0
  obtain rfl := hslot i hi hkey
  rw [hkey]
  cases hprobe : d.slot? tenant.bytes with
  | none => exact absurd hkey ((probe_eq_none_iff (hashTenant_lt _)).mp hprobe idx hi).2
  | some j =>
    rw [(findOrCreateEntry_of_some tenant 0 0 hprobe).1] at hfirst
    rw [← hfirst]
    exact hprobe

/-- A map has a free slot: in a full table a tenant that is not there would be given another's. -/
theorem IsMap.hasFree (h : IsMap d) : HasFree d := by
  by_contra hfull
  obtain ⟨tenant, habsent⟩ := exists_tenant_absent d
  have hnone : d.slot? tenant.bytes = none := by
    refine (probe_eq_none_iff (hashTenant_lt _)).mpr fun j hj => ⟨?_, habsent j hj⟩
    exact fun hfree => hfull ⟨j, hj, hfree⟩
  obtain ⟨idx, hfirst, hkey, -⟩ := h.finds tenant 0 0
  rw [findOrCreateEntry_of_none tenant 0 0 hnone] at hfirst hkey
  obtain rfl := Option.some.inj hfirst
  exact habsent _ (hashTenant_lt _) hkey

/-- A table whose tenants are found, with a free slot, is a map. -/
theorem isMap_of_found (hfound : TenantsFound d) (hfree : HasFree d) : IsMap d := by
  refine ⟨fun i hi j hj => hfound.unique hi hj, ?_⟩
  intro tenant firstNow lastNow
  cases hprobe : d.slot? tenant.bytes with
  | none => exact absurd hprobe (hfree.slot?_ne_none _)
  | some idx =>
    obtain ⟨hfirst, hkeys, -⟩ := findOrCreateEntry_of_some tenant firstNow lastNow hprobe
    refine ⟨idx, hfirst, by rw [hkeys, Function.update_self], ?_⟩
    intro i hi hkey
    have hi' := hfound i hi (hkey ▸ tenant.nonempty)
    rw [hkey] at hi'
    exact Option.some.inj (hprobe.symm.trans hi')

/-- **What makes the table a map.** -/
theorem isMap_iff (hnamed : Named d) : IsMap d ↔ TenantsFound d ∧ HasFree d :=
  ⟨fun h => ⟨h.tenantsFound hnamed, h.hasFree⟩, fun h => isMap_of_found h.1 h.2⟩

end Maps

/-! ### One call -/

section Calls

variable {d : AbuseDetector} {call : AbuseCall}

/-- The detector tracks requests. -/
def AbuseDetector.active (d : AbuseDetector) : Bool := d.initialized && d.config.enabled

/-- The guard with which both functions begin. -/
theorem abuse_guard (d : AbuseDetector) (tenant : TenantId) :
    (!d.initialized || !d.config.enabled || tenant.bytes == []) = !d.active := by
  have hbytes : (tenant.bytes == []) = false := beq_false_of_ne tenant.nonempty
  rw [hbytes, Bool.or_false, AbuseDetector.active, Bool.not_and]

/-- What is fixed by `abuse_detection_init`. -/
def AbuseDetector.settings (d : AbuseDetector) : AbuseConfig × Bool := (d.config, d.initialized)

/-- Searching for an entry leaves the settings. -/
theorem settings_findOrCreateEntry (firstNow lastNow : ℤ) (tenantId : List UInt8) (d : AbuseDetector) :
    (findOrCreateEntry firstNow lastNow tenantId d).2.settings = d.settings := by
  unfold findOrCreateEntry
  split
  · rfl
  · split
    · rfl
    · dsimp only
      split <;> rfl

/-- Cleanup leaves the settings. -/
theorem settings_cleanupOldEntries (now : ℤ) (d : AbuseDetector) : (cleanupOldEntries now d).settings = d.settings := by
  unfold cleanupOldEntries
  split <;> rfl

/-- Tracking a request leaves the settings. -/
theorem settings_abuseTrackRequest (clock : AbuseClock) (tenantId : List UInt8)
    (apiKey : Option (List UInt8)) (clientIp : List UInt8) (payloadSize : ℤ) (d : AbuseDetector) :
    (abuseTrackRequest clock tenantId apiKey clientIp payloadSize d).settings = d.settings := by
  have hfound := (settings_findOrCreateEntry clock.trackFirst clock.trackLast tenantId
    (cleanupOldEntries clock.cleanup d)).trans (settings_cleanupOldEntries clock.cleanup d)
  unfold abuseTrackRequest
  split
  · rfl
  · dsimp only
    generalize findOrCreateEntry clock.trackFirst clock.trackLast tenantId
      (cleanupOldEntries clock.cleanup d) = found at hfound ⊢
    obtain ⟨idx?, d'⟩ := found
    cases idx? with
    | none => exact hfound
    | some idx => exact hfound

/-- A detector that does not track requests is not changed. -/
theorem abuseStep_inactive (h : d.active = false) (call : AbuseCall) :
    (abuseStep d call).1 = d ∧ d.searched call = d := by
  cases call with
  | track clock tenant apiKey clientIp payloadSize =>
    refine ⟨?_, ?_⟩
    · simp only [abuseStep, abuseTrackRequest, abuse_guard, h, Bool.not_false, if_true]
    · show (if d.active then cleanupOldEntries clock.cleanup d else d) = d
      rw [h]
      rfl
  | check clock tenant payloadSize =>
    refine ⟨?_, rfl⟩
    simp only [abuseStep, abuseCheckPatterns, abuse_guard, h, Bool.not_false, if_true]

/-- The flood window is not in the table. -/
theorem table_floodWindow (now : ℤ) (entry : AbuseEntry) (d : AbuseDetector) :
    (floodWindow now entry d).table = d.table := by
  unfold floodWindow
  dsimp only
  split_ifs <;> rfl

/-- The pattern check changes the table as its search does. -/
theorem table_abuseCheckPatterns (h : d.active = true) (clock : AbuseClock) (tenant : TenantId) (payloadSize : ℤ) :
    (abuseCheckPatterns clock tenant.bytes payloadSize d).2.table =
      (findOrCreateEntry clock.checkFirst clock.checkLast tenant.bytes d).2.table := by
  simp only [abuseCheckPatterns, abuse_guard, h, Bool.not_true, Bool.false_eq_true, if_false]
  generalize findOrCreateEntry clock.checkFirst clock.checkLast tenant.bytes d = found
  obtain ⟨idx?, d'⟩ := found
  cases idx? with
  | none => rfl
  | some idx =>
    dsimp only
    split_ifs <;> first | rfl | exact table_floodWindow ..

/-- The tenant of an entry stays when a request is tracked in it. -/
theorem tenantId_trackEntry (now : ℤ) (config : AbuseConfig) (apiKey : Option (List UInt8))
    (clientIp : List UInt8) (payloadSize : ℤ) (entry : AbuseEntry) :
    (trackEntry now config apiKey clientIp payloadSize entry).tenantId = entry.tenantId := rfl

/-- **A call on a detector that tracks requests.** It searches for its tenant behind the cleanup, and then
changes the entry in the slot it was given, but not the tenant there. -/
theorem abuseStep_active (h : d.active = true) (call : AbuseCall) :
    ∃ firstNow lastNow : ℤ,
      (abuseStep d call).1.keys =
        (findOrCreateEntry firstNow lastNow call.tenant.bytes (d.searched call)).2.keys ∧
      ∀ idx, (findOrCreateEntry firstNow lastNow call.tenant.bytes (d.searched call)).1 = some idx →
        ∀ i ≠ idx, (abuseStep d call).1.table i =
          (findOrCreateEntry firstNow lastNow call.tenant.bytes (d.searched call)).2.table i := by
  cases call with
  | check clock tenant payloadSize =>
    have htable := table_abuseCheckPatterns h clock tenant payloadSize
    refine ⟨clock.checkFirst, clock.checkLast, ?_, ?_⟩
    · funext i
      exact congrArg (fun table : ℕ → AbuseEntry => (table i).tenantId) htable
    · intro idx _ i _
      exact congrFun htable i
  | track clock tenant apiKey clientIp payloadSize =>
    refine ⟨clock.trackFirst, clock.trackLast, ?_⟩
    have hsearched : d.searched (.track clock tenant apiKey clientIp payloadSize) =
        cleanupOldEntries clock.cleanup d := if_pos h
    rw [hsearched]
    simp only [abuseStep, AbuseCall.tenant, abuseTrackRequest, abuse_guard, h, Bool.not_true,
      Bool.false_eq_true, if_false]
    generalize findOrCreateEntry clock.trackFirst clock.trackLast tenant.bytes
      (cleanupOldEntries clock.cleanup d) = found
    obtain ⟨idx?, d'⟩ := found
    cases idx? with
    | none => exact ⟨rfl, fun idx hidx => absurd hidx nofun⟩
    | some idx =>
      refine ⟨?_, ?_⟩
      · refine (keys_setEntry d' idx _).trans ?_
        rw [tenantId_trackEntry]
        exact Function.update_eq_self idx d'.keys
      · intro j hj i hi
        obtain rfl := Option.some.inj hj
        exact Function.update_of_ne hi ..

/-- Cleanup keeps an entry or frees its slot. -/
theorem keys_searched (d : AbuseDetector) (call : AbuseCall) :
    (d.searched call).keys = fun i => if Drops d call i then [] else d.keys i := by
  funext i
  have hcases : (d.searched call).keys i = [] ∨ (d.searched call).keys i = d.keys i := by
    cases call with
    | check clock tenant payloadSize => exact .inr rfl
    | track clock tenant apiKey clientIp payloadSize =>
      unfold AbuseDetector.searched cleanupOldEntries AbuseDetector.keys
      dsimp only
      split_ifs
      · exact .inr rfl
      · dsimp only
        split_ifs
        · exact .inl rfl
        · exact .inr rfl
      · exact .inr rfl
  by_cases hdrops : Drops d call i
  · rw [if_pos hdrops]
    exact hdrops.2
  · rw [if_neg hdrops]
    rcases hcases with hfree | hsame
    · -- a slot that is free behind the cleanup and not dropped was free before
      by_cases hkey : d.keys i = []
      · rw [hfree, hkey]
      · exact absurd ⟨hkey, hfree⟩ hdrops
    · exact hsame

/-- **A call in terms of the keys.** It frees what its cleanup drops and then stores its tenant. -/
theorem keys_abuseStep (h : d.active = true) (call : AbuseCall) :
    (abuseStep d call).1.keys = insert maxTrackingEntries [] hashTenant (d.searched call).keys call.tenant.bytes := by
  obtain ⟨firstNow, lastNow, hkeys, -⟩ := abuseStep_active h call
  rw [hkeys, LinearProbing.insert]
  cases hprobe : (d.searched call).slot? call.tenant.bytes with
  | none =>
    rw [findOrCreateEntry_of_none _ _ _ hprobe]
    rw [AbuseDetector.slot?] at hprobe
    rw [hprobe]
  | some idx =>
    rw [(findOrCreateEntry_of_some _ _ _ hprobe).2.1]
    rw [AbuseDetector.slot?] at hprobe
    rw [hprobe]

/-- A call keeps to its tenant where its search ends. -/
theorem othersKept_of_hasFree (call : AbuseCall) (hfree : HasFree (d.searched call)) :
    OthersKept (recordOf abuseStep d call) := by
  intro i hstored hother
  cases hactive : d.active with
  | false =>
    obtain ⟨hstep, hsearched⟩ := abuseStep_inactive hactive call
    show (abuseStep d call).1.table i = (d.searched call).table i
    rw [hstep, hsearched]
  | true =>
    obtain ⟨firstNow, lastNow, -, hframe⟩ := abuseStep_active hactive call
    cases hprobe : (d.searched call).slot? call.tenant.bytes with
    | none => exact absurd hprobe (hfree.slot?_ne_none _)
    | some idx =>
      obtain ⟨hfirst, -, hrest⟩ := findOrCreateEntry_of_some call.tenant firstNow lastNow hprobe
      have hne : i ≠ idx := by
        rintro rfl
        rcases (keys_of_slot? hprobe).2 with hempty | hown
        · exact hstored hempty
        · exact hother hown
      exact (hframe idx hfirst i hne).trans (hrest i hne)

/-- Cleanup stores nothing. -/
theorem Named.searched (h : Named d) (call : AbuseCall) : Named (d.searched call) := by
  intro i hstored
  rw [keys_searched] at hstored ⊢
  dsimp only at hstored ⊢
  split at hstored
  · exact absurd rfl hstored
  · next hstays =>
      rw [if_neg hstays]
      exact h i hstored

/-- A call stores whole tenant ids only. -/
theorem Named.step (h : Named d) (call : AbuseCall) : Named (abuseStep d call).1 := by
  cases hactive : d.active with
  | false =>
    rw [(abuseStep_inactive hactive call).1]
    exact h
  | true =>
    intro i hstored
    rw [keys_abuseStep hactive] at hstored ⊢
    rcases insert_apply (d.searched call).keys call.tenant.bytes i with hsame | hnew
    · rw [hsame] at hstored ⊢
      exact h.searched call i hstored
    · exact ⟨call.tenant, hnew⟩

/-- Cleanup frees slots and fills none. -/
theorem HasFree.searched (h : HasFree d) (call : AbuseCall) : HasFree (d.searched call) := by
  obtain ⟨i, hi, hfree⟩ := h
  refine ⟨i, hi, ?_⟩
  rw [keys_searched]
  dsimp only
  split
  · rfl
  · exact hfree

/-- Behind the cleanup of a call on a map the table is a map just when no chain is broken. -/
theorem isMap_searched_iff (hnamed : Named d) (h : IsMap d) (call : AbuseCall) :
    IsMap (d.searched call) ↔ ChainsKept d call := by
  have hfree := h.hasFree.searched call
  rw [isMap_iff (hnamed.searched call), and_iff_left hfree, TenantsFound, keys_searched]
  exact found_erase_iff hashTenant_lt (h.tenantsFound hnamed) (Drops d call)

/-- Storing the tenant of a call keeps all tenants found. -/
theorem tenantsFound_step (h : TenantsFound (d.searched call)) : TenantsFound (abuseStep d call).1 := by
  cases hactive : d.active with
  | false =>
    obtain ⟨hstep, hsearched⟩ := abuseStep_inactive hactive call
    rw [hsearched] at h
    rwa [hstep]
  | true =>
    rw [TenantsFound, keys_abuseStep hactive]
    exact Found.insert hashTenant_lt h _

/-- **A call on a map.** The table stays a map throughout just when the cleanup breaks no chain and a slot
is free behind the call. -/
theorem mapKept_iff (hnamed : Named d) (h : IsMap d) (call : AbuseCall) :
    MapKept (recordOf abuseStep d call) ↔ ChainsKept d call ∧ HasFree (abuseStep d call).1 := by
  constructor
  · intro hkept
    exact ⟨(isMap_searched_iff hnamed h call).mp hkept.searched, hkept.after.hasFree⟩
  · rintro ⟨hchains, hfree⟩
    have hmap := (isMap_searched_iff hnamed h call).mpr hchains
    have hfound := tenantsFound_step (hmap.tenantsFound (hnamed.searched call))
    exact ⟨hmap, isMap_of_found hfound hfree, othersKept_of_hasFree call hmap.hasFree⟩

end Calls

/-! ### Runs -/

section Runs

variable {now : ℤ} {config : AbuseConfig}

/-- `abuse_detection_init` leaves all slots free. -/
theorem keys_abuseInit (now : ℤ) (config : AbuseConfig) (i : ℕ) : (abuseInit now config .atStart).keys i = [] := rfl

/-- An empty table is a map. -/
theorem isMap_abuseInit (now : ℤ) (config : AbuseConfig) : IsMap (abuseInit now config .atStart) := by
  refine isMap_of_found ?_ ⟨0, by decide, rfl⟩
  intro i _ hstored
  exact absurd (keys_abuseInit now config i) hstored

/-- Only whole tenant ids are stored in a run. -/
theorem named_of_run {past : List AbuseRecord} {d : AbuseDetector} (run : AbuseRun now config past d) : Named d := by
  refine run.invariant (P := fun _ d => Named d) ?_ (fun _ _ call h => h.step call)
  intro i hstored
  exact absurd (keys_abuseInit now config i) hstored

end Runs

/-- **The tracking table over a run.** From `abuse_detection_init` on, with any clock and any configuration,
the table was a map at every search and behind every call, and every call kept to its tenant, if and only if
no cleanup broke a probe chain and a slot was free behind every call. -/
theorem tracking_table_iff (now : ℤ) (config : AbuseConfig) (past : List AbuseRecord)
    (d : AbuseDetector) (run : AbuseRun now config past d) :
    (∀ r ∈ past, MapKept r) ↔ ∀ r ∈ past, ChainsKept r.before r.input ∧ HasFree r.after := by
  refine run.forall_iff (isMap_abuseInit now config) (fun _ _ _ _ _ h => h.after) ?_
  intro past d call run h
  exact mapKept_iff (named_of_run run) h call

/-- The defaults, with detection on. -/
def enabledAbuseConfig : AbuseConfig := ⟨true, 10, 524288, 80, 500, 10, 10, 20, 300⟩

/-- All readings of one request at the same time. -/
def AbuseClock.still (now : ℤ) : AbuseClock := ⟨now, now, now, now, now, now, now, now⟩

/-- A tenant of slot 3223. -/
def tenantAq : TenantId := ⟨ascii "aq", by decide, by decide, by decide⟩

/-- Another one of the same slot. -/
def tenantBP : TenantId := ⟨ascii "bP", by decide, by decide, by decide⟩

/-- A request of a tenant, tracked at a time. -/
def trackAt (now : ℤ) (tenant : TenantId) : AbuseCall := .track (.still now) tenant none [] 100

/-- One tracked request takes the slot of its tenant and leaves a map. -/
theorem tracking_table_one_tenant :
    (exec abuseStep (abuseInit 0 enabledAbuseConfig .atStart) [trackAt 0 tenantAq]).2.keys 3223 =
        tenantAq.bytes ∧
      ∀ r ∈ (exec abuseStep (abuseInit 0 enabledAbuseConfig .atStart) [trackAt 0 tenantAq]).1,
        MapKept r := by
  refine ⟨by decide, ?_⟩
  refine (tracking_table_iff 0 enabledAbuseConfig _ _ (run_exec _ _ _)).mpr ?_
  intro r hr
  obtain rfl := List.mem_singleton.mp hr
  refine ⟨?_, 0, by decide, by decide⟩
  intro i _ hstored
  exact absurd rfl hstored

/-- The tenant of the first slot falls silent and is dropped. The other one, a slot further on, is still
active, is not found any more and gets a second entry. -/
theorem tracking_table_twice :
    let d := (exec abuseStep (abuseInit 0 enabledAbuseConfig .atStart)
      [trackAt 0 tenantAq, trackAt 0 tenantBP, trackAt 299 tenantBP, trackAt 301 tenantBP]).2
    d.keys 3223 = tenantBP.bytes ∧ d.keys 3224 = tenantBP.bytes ∧ ¬ IsMap d := by
  have hfirst : (exec abuseStep (abuseInit 0 enabledAbuseConfig .atStart)
      [trackAt 0 tenantAq, trackAt 0 tenantBP, trackAt 299 tenantBP, trackAt 301 tenantBP]).2.keys
        3223 = tenantBP.bytes := by
    decide
  have hsecond : (exec abuseStep (abuseInit 0 enabledAbuseConfig .atStart)
      [trackAt 0 tenantAq, trackAt 0 tenantBP, trackAt 299 tenantBP, trackAt 301 tenantBP]).2.keys
        3224 = tenantBP.bytes := by
    decide
  refine ⟨hfirst, hsecond, ?_⟩
  intro hmap
  have heq := hmap.unique 3223 (by decide) 3224 (by decide) (by rw [hfirst]; decide)
    (hfirst.trans hsecond.symm)
  exact absurd heq (by decide)

end CGateway
