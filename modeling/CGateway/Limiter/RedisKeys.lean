import CGateway.Limiter.RateLimiter

/-! # The keys of the Redis backend

A key names an endpoint, a tenant, an API key and the start of a window, separated by colons. Tenants
and API keys may contain colons themselves, so different pairs can share a key; the endpoint in front
and the window at the end cannot be confused.

* `buildRedisKey_eq_iff` / `buildRedisKey_inj` — equal keys have the same endpoint, the same window and the same
  text between them;
* `redis_keys_shared_iff` — which tenants and API keys share a counter;
* `buildRedisKey_isSome` — the key of a tenant of at most 63 bytes fits the buffer;
* `getWindowStart_spec` — a time lies in its window. -/

namespace CGateway

open Bytes CString

section Keys

/-- The name of an endpoint has no colon. -/
theorem colon_notMem_redisEndpointName (endpoint : RlEndpoint) : (58 : UInt8) ∉ redisEndpointName endpoint := by
  cases endpoint <;> decide

/-- Endpoints have different names. -/
theorem redisEndpointName_injective : Function.Injective redisEndpointName := by
  intro e e' h
  cases e <;> cases e' <;> first | rfl | exact absurd h (by decide)

/-- A number has no colon. -/
theorem colon_notMem_decimal (n : ℤ) : (58 : UInt8) ∉ decimal n := by
  intro h
  rcases toNat_of_mem_decimal h with hsign | hdigit
  · exact absurd hsign (by decide)
  · exact absurd hdigit.2 (by decide)

/-- A key taken apart at its first colons and at its last. -/
theorem buildRedisKey_eq_some {endpoint : RlEndpoint} {tenantId apiKey : Option (List UInt8)} {windowStart : ℤ}
    {key : List UInt8} (h : buildRedisKey endpoint tenantId apiKey windowStart = some key) :
    key = ascii "rate_limit:" ++ (redisEndpointName endpoint ++ 58 ::
      (tenantId.getD [] ++ 58 :: (apiKey.getD [] ++ 58 :: decimal windowStart))) := by
  rw [buildRedisKey] at h
  split at h
  · rw [← Option.some.inj h]
    simp [List.append_assoc, ascii]
  · cases h

/-- The tenant of the second pair carries on over a colon into the API key of the first. -/
def KeyShifts (tenantId apiKey tenantId' apiKey' : List UInt8) : Prop :=
  ∃ m, tenantId' = tenantId ++ 58 :: m ∧ apiKey = m ++ 58 :: apiKey'

section Pairs

variable {e e' : RlEndpoint} {t t' a a' : Option (List UInt8)} {w w' : ℤ} {key key' : List UInt8}

/-- Keys are equal just when endpoint, window and the text between them are. -/
theorem buildRedisKey_eq_iff (h : buildRedisKey e t a w = some key)
    (h' : buildRedisKey e' t' a' w' = some key') : key = key' ↔
      e = e' ∧ w = w' ∧ t.getD [] ++ 58 :: a.getD [] = t'.getD [] ++ 58 :: a'.getD [] := by
  rw [buildRedisKey_eq_some h, buildRedisKey_eq_some h']
  constructor
  · intro heq
    have hrest := List.append_cancel_left heq
    obtain ⟨hname, hbehind⟩ := append_sep_inj (colon_notMem_redisEndpointName e)
      (colon_notMem_redisEndpointName e') hrest
    -- The window is what stands behind the last colon.
    have hlast : (t.getD [] ++ 58 :: a.getD []) ++ 58 :: decimal w =
        (t'.getD [] ++ 58 :: a'.getD []) ++ 58 :: decimal w' := by
      simpa only [List.append_assoc, List.cons_append] using hbehind
    have hwindow : w = w' := decimal_injective
      (append_sep_inj_last (colon_notMem_decimal w) (colon_notMem_decimal w') hlast)
    rw [hwindow] at hlast
    exact ⟨redisEndpointName_injective hname, hwindow, List.append_cancel_right hlast⟩
  · rintro ⟨rfl, rfl, hfields⟩
    have hsame := congrArg (· ++ 58 :: decimal w) hfields
    simp only [List.append_assoc, List.cons_append] at hsame
    rw [hsame]

/-- **Keys.** Equal keys belong to the same endpoint and the same window. -/
theorem buildRedisKey_inj (h : buildRedisKey e t a w = some key)
    (h' : buildRedisKey e' t' a' w' = some key) : e = e' ∧ w = w' := by
  obtain ⟨he, hw, _⟩ := (buildRedisKey_eq_iff h h').mp rfl
  exact ⟨he, hw⟩

/-- An optional text that is not the empty one is known by its text. -/
theorem eq_of_getD_nil_eq {o o' : Option (List UInt8)} (ho : o ≠ some []) (ho' : o' ≠ some [])
    (h : o.getD [] = o'.getD []) : o = o' := by
  cases o with
  | none =>
    cases o' with
    | none => rfl
    | some x => exact absurd (congrArg some h.symm) ho'
  | some x =>
    cases o' with
    | none => exact absurd (congrArg some h) ho
    | some y => exact congrArg some h

/-- **Which keys are shared.** Two checks share a counter just when they have the same endpoint and window, and
tenant and API key are the same texts or the tenant of one carries on over a colon into the API key of the other.
So keys tell apart what they are built from if no text is empty and the tenants, or the API keys, have no colon. -/
theorem redis_keys_shared_iff (h : buildRedisKey e t a w = some key) (h' : buildRedisKey e' t' a' w' = some key') :
    (key = key' ↔ e = e' ∧ w = w' ∧ ((t.getD [] = t'.getD [] ∧ a.getD [] = a'.getD []) ∨
      KeyShifts (t.getD []) (a.getD []) (t'.getD []) (a'.getD []) ∨
      KeyShifts (t'.getD []) (a'.getD []) (t.getD []) (a.getD []))) ∧
    ((∀ o ∈ [t, a, t', a'], o ≠ some []) →
      (58 ∉ t.getD [] ∧ 58 ∉ t'.getD []) ∨ (58 ∉ a.getD [] ∧ 58 ∉ a'.getD []) →
      (key = key' ↔ (e, t, a, w) = (e', t', a', w'))) := by
  have hshared := buildRedisKey_eq_iff h h'
  rw [append_sep_eq_iff] at hshared
  refine ⟨hshared, fun hpresent hcolon => hshared.trans ⟨?_, ?_⟩⟩
  · rintro ⟨rfl, rfl, ⟨htenant, hapi⟩ | ⟨m, htenant, hapi⟩ | ⟨m, htenant, hapi⟩⟩
    · simp only [List.forall_mem_cons] at hpresent
      obtain ⟨ht, ha, ht', ha', _⟩ := hpresent
      rw [eq_of_getD_nil_eq ht ht' htenant, eq_of_getD_nil_eq ha ha' hapi]
    -- In a shift one of the tenants and one of the API keys has a colon.
    · rw [htenant, hapi] at hcolon
      simp at hcolon
    · rw [htenant, hapi] at hcolon
      simp at hcolon
  · intro heq
    obtain ⟨rfl, rfl, rfl, rfl⟩ : e = e' ∧ t = t' ∧ a = a' ∧ w = w' := by
      simpa only [Prod.mk.injEq] using heq
    exact ⟨rfl, rfl, .inl ⟨rfl, rfl⟩⟩

end Pairs

/-- Two tenants without an API key in one window. -/
theorem redis_keys_shared_two_tenants :
    ascii "rate_limit:messages:a::60" ≠ ascii "rate_limit:messages:b::60" := by
  intro heq
  have hshared := redis_keys_shared_iff
    (show buildRedisKey .messages (some [97]) none 60 = some (ascii "rate_limit:messages:a::60") by decide +kernel)
    (show buildRedisKey .messages (some [98]) none 60 = some (ascii "rate_limit:messages:b::60") by decide +kernel)
  have hsame := (hshared.2 (by decide) (by decide)).mp heq
  exact absurd hsame (by decide)

/-- The tenant `a:b` with the key `c` and the tenant `a` with the key `b:c` share a counter: with a limit of 1 in a
window, a check of the first leaves nothing to the second. -/
theorem redis_keys_shared_shift :
    let key := ascii "rate_limit:messages:a:b:c:60"
    let st : RedisRlState := ⟨true, 60, fun _ => 1, false, none, 0, 0, 0⟩
    buildRedisKey .messages (some (ascii "a:b")) (some (ascii "c")) 60 = some key ∧
      buildRedisKey .messages (some (ascii "a")) (some (ascii "b:c")) 60 = some key ∧
      (redisRlCheck 60 (fun _ => .integer 1) .messages (some (ascii "a:b")) (some (ascii "c")) st).result =
        .allowed ∧
      (redisRlCheck 61 (fun k => .integer (if k = key then 2 else 1)) .messages (some (ascii "a"))
        (some (ascii "b:c")) st).result = .exceeded := by
  decide +kernel

/-- The key of a tenant of at most 63 bytes, without an API key, fits the buffer. -/
theorem buildRedisKey_isSome (endpoint : RlEndpoint) {tenantId : Option (List UInt8)}
    (htenant : (tenantId.getD []).length ≤ 63) {windowStart : ℤ} (h₀ : 0 ≤ windowStart)
    (h : windowStart < 2 ^ 63) : ∃ key, buildRedisKey endpoint tenantId none windowStart = some key := by
  obtain ⟨n, rfl⟩ := Int.eq_ofNat_of_zero_le h₀
  have hdigits : (decimal n).length ≤ 19 := length_decimalNat_le (by decide) (by omega)
  have hname : (redisEndpointName endpoint).length ≤ 15 := by cases endpoint <;> decide
  have hhead : (ascii "rate_limit:").length = 11 := length_ascii_ofList _
  have hcolon : (ascii ":").length = 1 := by decide
  refine ⟨_, if_pos ?_⟩
  simp only [List.length_append, Option.getD_none, List.length_nil, hhead, hcolon]
  omega

end Keys

section Windows

/-- A time that is not negative lies in its window. -/
theorem getWindowStart_spec {now ttl : ℤ} (hnow : 0 ≤ now) (httl : 0 < ttl) :
    0 ≤ getWindowStart now ttl ∧ getWindowStart now ttl ≤ now ∧ now < getWindowStart now ttl + ttl := by
  rw [getWindowStart, Int.tdiv_eq_ediv_of_nonneg hnow]
  have hmod := Int.emod_lt_of_pos now httl
  have hmod' := Int.emod_nonneg now httl.ne'
  have hdiv := Int.ediv_mul_add_emod now ttl
  have hquot := Int.ediv_nonneg hnow httl.le
  have hprod := Int.mul_nonneg hquot httl.le
  omega

end Windows

end CGateway
