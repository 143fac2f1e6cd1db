import CGateway.Http.DecidePath
import CGateway.Http.ParseRequest
import CGateway.Limiter.FixedWindow

/-! # The headers of a limit error

`send_rate_limit_error` tells the client the limit, the time at which it is reset and how long to wait. The limit and
the length of a window come from the environment, as those of the limiter do; the time is the present one with a window
added to it. The window that refused the request began earlier, when the limiter was first asked in it, and it ends
earlier than the headers say.

* `LimitAnnouncement` — the numbers in the headers, and the headers as they are sent (`headers_limitErrorResponse`);
* `retry_refused_iff` — after a refusal, with no other traffic: when the next request is refused;
* `limit_headers_iff` — the headers tell the truth just when the window began in the second in which they are
  written. -/

namespace CGateway

open Bytes CString Machine

/-! ### What is announced -/

/-- The numbers in the headers of a limit error. -/
structure LimitAnnouncement where
  limit : ℤ
  reset : ℤ
  retryAfter : ℤ
  deriving DecidableEq, Repr

/-- The header lines with these numbers. -/
def LimitAnnouncement.text (a : LimitAnnouncement) : List UInt8 :=
  ascii "X-RateLimit-Limit: " ++ decimal a.limit ++ ascii "\r\nX-RateLimit-Remaining: " ++ decimal 0 ++
    ascii "\r\nX-RateLimit-Reset: " ++ decimal a.reset ++ ascii "\r\nRetry-After: " ++ decimal a.retryAfter ++
    ascii "\r\n"

/-- The numbers that `send_rate_limit_error` puts into its headers. -/
def limitAnnouncement (h : Host) (x : Exchange) (endpoint : RlEndpoint) : LimitAnnouncement where
  limit := getEndpointLimit h.getenv endpoint
  reset := x.clock.limitHeader + getTtlSeconds h.getenv
  retryAfter := getTtlSeconds h.getenv

/-- The server and the limiter read a setting in the same way. -/
theorem envToInt_eq_envPositive (getenv : Getenv) (name : String) (default : ℤ) :
    envToInt getenv name default = envPositive getenv name default := by
  rw [envToInt, envPositive]
  cases getenv name with
  | none => rfl
  | some val =>
    dsimp only
    by_cases hempty : val = []
    · rw [if_pos hempty, hempty, if_neg (by decide)]
    · rw [if_neg hempty]
      by_cases hpos : 0 < atoi val
      · rw [if_pos hpos, if_neg (not_le.mpr hpos)]
      · rw [if_neg hpos, if_pos (not_lt.mp hpos)]

theorem getEndpointLimit_eq (getenv : Getenv) (endpoint : RlEndpoint) :
    getEndpointLimit getenv endpoint = backendEndpointLimit getenv endpoint :=
  envToInt_eq_envPositive getenv _ _

theorem getTtlSeconds_eq (getenv : Getenv) : getTtlSeconds getenv = backendTtlSeconds getenv :=
  envToInt_eq_envPositive getenv _ _

theorem backendTtlSeconds_lt (getenv : Getenv) : backendTtlSeconds getenv < 2 ^ 31 :=
  (envPositive_range getenv _ (by decide) (by decide)).2

/-! ### The headers are sent -/

/-- The clock is read in this order while a limit error is written, and its readings are times. -/
structure ReadInOrder (clock : Clock) : Prop where
  reset : clock.limiter ≤ clock.limitReset
  retry : clock.limitReset ≤ clock.limitRetry
  header : clock.limitRetry ≤ clock.limitHeader
  time : clock.limitHeader < 2 ^ 62

/-- A number that is not negative and below `10 ^ k` has at most `k` digits. -/
theorem length_decimal_le {n : ℤ} {k : ℕ} (h₀ : 0 ≤ n) (hk : 0 < k) (h : n < 10 ^ k) : (decimal n).length ≤ k := by
  obtain ⟨m, rfl⟩ := Int.eq_ofNat_of_zero_le h₀
  exact length_decimalNat_le hk (by exact_mod_cast h)

theorem length_rateLimitBody_le {endpoint : RlEndpoint} {limit retryAfter : ℤ} {ctx : RequestContext} (hctx : ctx.Fits)
    (hlimit : (decimal limit).length ≤ 10) (hretry : (decimal retryAfter).length ≤ 10) :
    (rateLimitBody endpoint limit retryAfter ctx).length ≤ 700 := by
  have hcode : (ascii "rate_limit_exceeded").length = 19 := length_ascii_ofList _
  have hmessage : (ascii "\"message\":\"Rate limit exceeded for endpoint ").length = 44 := length_ascii_ofList _
  have hname : (endpointName endpoint).length ≤ 23 := by cases endpoint <;> decide
  have hdetails : (ascii "\",\"intake_error_code\":null,\"details\":\x7b\"endpoint\":\"").length = 50 :=
    length_ascii_ofList _
  have hlimitName : (ascii "\",\"limit\":").length = 10 := length_ascii_ofList _
  have hretryName : (ascii ",\"retry_after_seconds\":").length = 23 := length_ascii_ofList _
  have hend : (ascii "\x7d\x7d,").length = 3 := length_ascii_ofList _
  obtain ⟨hrequest, htrace, htenant⟩ := hctx
  simp only [rateLimitBody, List.length_append, length_errorHead, length_contextText, hcode, hmessage, hdetails,
    hlimitName, hretryName, hend]
  omega

theorem length_announcement_le {a : LimitAnnouncement} (hlimit : (decimal a.limit).length ≤ 10)
    (hreset : (decimal a.reset).length ≤ 19) (hretry : (decimal a.retryAfter).length ≤ 10) : a.text.length ≤ 150 := by
  have hlimitName : (ascii "X-RateLimit-Limit: ").length = 19 := length_ascii_ofList _
  have hremainingName : (ascii "\r\nX-RateLimit-Remaining: ").length = 25 := length_ascii_ofList _
  have hzero : (decimal 0).length = 1 := by decide
  have hresetName : (ascii "\r\nX-RateLimit-Reset: ").length = 21 := length_ascii_ofList _
  have hretryName : (ascii "\r\nRetry-After: ").length = 15 := length_ascii_ofList _
  have hend : (ascii "\r\n").length = 2 := length_ascii_ofList _
  simp only [LimitAnnouncement.text, List.length_append, hlimitName, hremainingName, hzero, hresetName, hretryName,
    hend]
  omega

variable {endpoint : RlEndpoint} {st : MemoryRlState}

/-- **The headers as they are sent.** A limit error for a context that fits its fields has the headers of the limit. -/
theorem headers_limitErrorResponse {h : Host} {x : Exchange} {ctx : RequestContext} (hctx : ctx.Fits)
    (hclock : ReadInOrder x.clock) (hpos : 0 < x.clock.limiter) :
    ∃ front, (limitErrorResponse h x endpoint ctx).headers = front ++ (limitAnnouncement h x endpoint).text := by
  obtain ⟨hreset, hretry, hheader, htime⟩ := hclock
  have hlimitRange := backendEndpointLimit_range h.getenv endpoint
  have httlPos := backendTtlSeconds_pos h.getenv
  have httlLt := backendTtlSeconds_lt h.getenv
  have hlimitEq : (limitAnnouncement h x endpoint).limit = backendEndpointLimit h.getenv endpoint :=
    getEndpointLimit_eq h.getenv endpoint
  have hresetEq : (limitAnnouncement h x endpoint).reset = x.clock.limitHeader + backendTtlSeconds h.getenv := by
    rw [← getTtlSeconds_eq]
    rfl
  have hretryEq : (limitAnnouncement h x endpoint).retryAfter = backendTtlSeconds h.getenv := getTtlSeconds_eq h.getenv
  have hlimitDigits : (decimal (limitAnnouncement h x endpoint).limit).length ≤ 10 :=
    length_decimal_le (by omega) (by decide) (by omega)
  have hresetDigits : (decimal (limitAnnouncement h x endpoint).reset).length ≤ 19 :=
    length_decimal_le (by omega) (by decide) (by omega)
  have hretryDigits : (decimal (limitAnnouncement h x endpoint).retryAfter).length ≤ 10 :=
    length_decimal_le (by omega) (by decide) (by omega)
  have hwaitDigits :
      (decimal (max 0 (x.clock.limitReset + getTtlSeconds h.getenv - x.clock.limitRetry))).length ≤ 10 := by
    rw [getTtlSeconds_eq]
    exact length_decimal_le (le_max_left _ _) (by decide) (by omega)
  have hbody := @length_rateLimitBody_le endpoint _ _ ctx hctx hlimitDigits hwaitDigits
  have htext := length_announcement_le hlimitDigits hresetDigits hretryDigits
  -- Everything that is written is below two kilobytes, so neither check of the lengths takes its other branch.
  have hshort : (rateLimitResponse h x endpoint ctx).body.length < maxMessageSize := by
    rw [body_rateLimitResponse, maxMessageSize]
    exact lt_of_le_of_lt hbody (by decide)
  have hdigits : (decimalNat (rateLimitBody endpoint (getEndpointLimit h.getenv endpoint)
      (max 0 (x.clock.limitReset + getTtlSeconds h.getenv - x.clock.limitRetry)) ctx).length).length ≤ 3 :=
    length_decimalNat_le (by decide) (lt_of_le_of_lt hbody (by decide))
  rw [limitErrorResponse, if_pos hshort, rateLimitResponse, if_pos]
  · exact ⟨_, rfl⟩
  · have hstatus : StatusLine.text .tooManyRequests = ascii "HTTP/1.1 429 Too Many Requests" := rfl
    have hstatusLen : (ascii "HTTP/1.1 429 Too Many Requests").length = 30 := length_ascii_ofList _
    have htype : (ascii "Content-Type: application/json\r\nContent-Length: ").length = 48 := length_ascii_ofList _
    have hend : (ascii "\r\n").length = 2 := length_ascii_ofList _
    have hannounced : (rateLimitHeaders (getEndpointLimit h.getenv endpoint) 0 x.clock.limitHeader
        (getTtlSeconds h.getenv)).length ≤ 150 := htext
    have hbodyEq : (limitAnnouncement h x endpoint).limit = getEndpointLimit h.getenv endpoint := rfl
    rw [hbodyEq] at hbody
    simp only [Response.wire, hstatus, List.length_append, hstatusLen, htype, hend, maxMessageSize]
    omega

/-! ### The next request -/

section Retry

variable {endpoint : RlEndpoint} {st : MemoryRlState} {now t : ℤ}

/-- **After a refusal**, with no other traffic, the next request is refused up to the end of the window. -/
theorem retry_refused_iff (hlimit : 0 < st.limits endpoint ∧ st.limits endpoint < 2 ^ 31)
    (hrefused : (memoryRlCheck now endpoint st).result = .exceeded)
    (hstarted : (memoryRlCheck now endpoint st).state.windowStartedAt ≠ 0) :
    (memoryRlCheck t endpoint (memoryRlCheck now endpoint st).state).result = .exceeded ↔
      t < (memoryRlCheck now endpoint st).state.windowStartedAt + st.ttlSeconds := by
  have hconvert := unsignedInt_of_int hlimit.1.le hlimit.2
  -- The refusal says that the window is full, and it leaves the window as it was.
  have hfull : unsignedInt (st.limits endpoint) ≤ (memoryRlWindow now st).counters endpoint := by
    by_contra hroom
    rw [memoryRlCheck] at hrefused
    dsimp only at hrefused
    rw [memoryRlWindow_limits, if_neg hroom] at hrefused
    cases hrefused
  have hstate : (memoryRlCheck now endpoint st).state = { memoryRlWindow now st with
      totalHits := (memoryRlWindow now st).totalHits + 1
      totalExceeded := (memoryRlWindow now st).totalExceeded + 1 } := by
    rw [memoryRlCheck]
    dsimp only
    rw [memoryRlWindow_limits, if_pos hfull]
  generalize hafter : (memoryRlCheck now endpoint st).state = after at hstate hstarted ⊢
  have hlimits : after.limits = st.limits := by rw [hstate]; exact memoryRlWindow_limits st now
  have httl : after.ttlSeconds = st.ttlSeconds := by rw [hstate]; exact memoryRlWindow_ttlSeconds st now
  have hcounters : after.counters = (memoryRlWindow now st).counters := by rw [hstate]
  have hexpired : WindowExpired t after ↔ ¬ t < after.windowStartedAt + st.ttlSeconds := by
    rw [WindowExpired, httl, or_iff_right hstarted]
    omega
  rw [memoryRlCheck]
  dsimp only
  by_cases hwindow : WindowExpired t after
  · -- a new window, in which nothing is counted yet
    have hroom : ¬ unsignedInt (st.limits endpoint) ≤ 0 := by omega
    rw [memoryRlWindow_expired hwindow, hlimits]
    dsimp only
    rw [if_neg hroom]
    simp [hexpired.mp hwindow]
  · -- the same window, still full
    rw [memoryRlWindow_open hwindow, hlimits, hcounters, if_pos hfull]
    simp only [true_iff]
    exact not_not.mp (mt hexpired.mpr hwindow)

/-- A request that is not refused is allowed. -/
theorem memoryRlCheck_allowed_iff : (memoryRlCheck t endpoint st).result = .allowed ↔
    ¬ (memoryRlCheck t endpoint st).result = .exceeded := by
  rw [memoryRlCheck]
  dsimp only
  split <;> simp

end Retry

/-! ### The truth of the headers -/

/-- The headers, sent at a time, name this instant as the end of the refusals: with no other traffic, a retry before it
is refused and one at it is allowed. -/
def Designates (endpoint : RlEndpoint) (st : MemoryRlState) (sentAt instant : ℤ) : Prop :=
  (∀ t, sentAt ≤ t → t < instant → (memoryRlCheck t endpoint st).result = .exceeded) ∧
    (memoryRlCheck instant endpoint st).result = .allowed

/-- What is announced at a time is true of the limiter. -/
structure TellsTruth (a : LimitAnnouncement) (endpoint : RlEndpoint) (st : MemoryRlState) (sentAt : ℤ) : Prop where
  limit : a.limit = st.limits endpoint
  reset : Designates endpoint st sentAt a.reset
  retryAfter : Designates endpoint st sentAt (sentAt + a.retryAfter)

/-- The instant a window length after the present ends the refusals only if the window begins at present. -/
theorem designates_iff {sentAt ttl : ℤ} (hpos : 0 < ttl) (hstarted : st.windowStartedAt ≤ sentAt)
    (hretry : ∀ t, (memoryRlCheck t endpoint st).result = .exceeded ↔ t < st.windowStartedAt + ttl) :
    Designates endpoint st sentAt (sentAt + ttl) ↔ sentAt = st.windowStartedAt := by
  rw [Designates, memoryRlCheck_allowed_iff, hretry]
  constructor
  · rintro ⟨hbefore, -⟩
    -- At the end of the window, or now if that is later, a retry is allowed.
    by_contra hne
    have hrefused := hbefore (max sentAt (st.windowStartedAt + ttl)) (le_max_left _ _) (by omega)
    rw [hretry] at hrefused
    omega
  · rintro rfl
    exact ⟨fun t _ ht => (hretry t).mpr ht, lt_irrefl _⟩

/-- The window after a check has begun, at a time of the clock, and not later than the check. -/
theorem window_of_check {limits : RlEndpoint → ℤ} {ttl : ℤ} {past : List MemoryRecord}
    (inv : MemoryInv limits ttl past st) {c : MemoryCheck} (hclock : Clocked (recordOf memoryStep st c :: past)) :
    (memoryStep st c).1.windowStartedAt ≠ 0 ∧ (memoryStep st c).1.windowStartedAt ≤ c.now := by
  have hnow : 0 < c.now := hclock.positive _ List.mem_cons_self
  rw [(memoryStep_frame st c).2.2]
  by_cases hexpired : WindowExpired c.now st
  · rw [memoryRlWindow_expired hexpired]
    exact ⟨hnow.ne', le_rfl⟩
  · rw [memoryRlWindow_open hexpired]
    exact ⟨fun hzero => hexpired (.inl hzero), inv.started_le hclock hexpired⟩

/-- A request that is refused with the memory limiter: the limiter refused it, and is kept as it left it. -/
theorem rateLimitCheck_memory {h : Host} {x : Exchange} {tenantId : Option (List UInt8)} {w : World}
    (hlimiter : (rateLimitInitIfNeeded h x w.gateway).rateLimiter = some (.memory st))
    (hrefused : (rateLimitCheck h x endpoint tenantId w).1 = .exceeded) :
    (memoryRlCheck x.clock.limiter endpoint st).result = .exceeded ∧
      (rateLimitCheck h x endpoint tenantId w).2.gateway.rateLimiter =
        some (.memory (memoryRlCheck x.clock.limiter endpoint st).state) := by
  have hexceeded : (memoryRlCheck x.clock.limiter endpoint st).result = .exceeded := by
    rw [rateLimitCheck] at hrefused
    dsimp only [World.update_gateway, World.emit_gateway] at hrefused
    rw [hlimiter] at hrefused
    dsimp only [Limiter.check, RlOutcome.map] at hrefused
    cases hresult : (memoryRlCheck x.clock.limiter endpoint st).result with
    | exceeded => rfl
    | allowed =>
      rw [hresult] at hrefused
      cases hrefused
    | error =>
      rw [hresult, rateLimitVerdict] at hrefused
      split at hrefused <;> cases hrefused
  refine ⟨hexceeded, ?_⟩
  rw [rateLimitCheck]
  dsimp only [World.update_gateway, World.emit_gateway]
  rw [hlimiter]
  dsimp only [Limiter.check, RlOutcome.map, World.update]
  rw [hexceeded]
  rfl

/-- **The headers of a limit error.** In every run of the memory limiter under a clock that does not go back, a request
that `rate_limit_check` refuses is answered with the limit that is enforced; the two times are true if and only if the
window of the limiter began in the second in which the headers are written. -/
theorem limit_headers_iff (h : Host) (x : Exchange) (endpoint : RlEndpoint) (ctx : RequestContext) (w : World)
    (tenantId : Option (List UInt8)) (past : List MemoryRecord) (st : MemoryRlState)
    (run : MemoryRun (backendEndpointLimit h.getenv) (backendTtlSeconds h.getenv) past st)
    (hlimiter : (rateLimitInitIfNeeded h x w.gateway).rateLimiter = some (.memory st))
    (hclock : Clocked (recordOf memoryStep st ⟨x.clock.limiter, endpoint.id⟩ :: past))
    (hread : ReadInOrder x.clock) (hctx : ctx.Fits)
    (hrefused : (rateLimitCheck h x endpoint tenantId w).1 = .exceeded) :
    ∃ st', (rateLimitCheck h x endpoint tenantId w).2.gateway.rateLimiter = some (.memory st') ∧
      (∃ front, (limitErrorResponse h x endpoint ctx).headers = front ++ (limitAnnouncement h x endpoint).text) ∧
      (limitAnnouncement h x endpoint).limit = st'.limits endpoint ∧
      (TellsTruth (limitAnnouncement h x endpoint) endpoint st' x.clock.limitHeader ↔
        x.clock.limitHeader = st'.windowStartedAt) := by
  have hlimits : ∀ endpoint, 0 < backendEndpointLimit h.getenv endpoint ∧
      backendEndpointLimit h.getenv endpoint < 2 ^ 31 := backendEndpointLimit_range h.getenv
  have httl := backendTtlSeconds_pos h.getenv
  have inv := memoryInv_of_run httl hlimits run hclock.tail
  have hstep : (memoryStep st ⟨x.clock.limiter, endpoint.id⟩).1 =
      (memoryRlCheck x.clock.limiter endpoint st).state := by
    rw [memoryStep, memoryRlCheckId, RlEndpoint.ofId_id]
  obtain ⟨hstarted, hle⟩ := window_of_check inv hclock
  rw [hstep] at hstarted hle
  obtain ⟨hexceeded, hafter⟩ := rateLimitCheck_memory hlimiter hrefused
  have hframe := memoryStep_frame st ⟨x.clock.limiter, endpoint.id⟩
  rw [hstep] at hframe
  have hlimit : (limitAnnouncement h x endpoint).limit =
      (memoryRlCheck x.clock.limiter endpoint st).state.limits endpoint := by
    rw [hframe.1, inv.limits_eq]
    exact getEndpointLimit_eq h.getenv endpoint
  have hretry : ∀ t, (memoryRlCheck t endpoint (memoryRlCheck x.clock.limiter endpoint st).state).result = .exceeded ↔
      t < (memoryRlCheck x.clock.limiter endpoint st).state.windowStartedAt + backendTtlSeconds h.getenv := by
    intro t
    have hiff := @retry_refused_iff endpoint st x.clock.limiter t (by rw [inv.limits_eq]; exact hlimits endpoint)
      hexceeded hstarted
    rwa [inv.ttl_eq] at hiff
  have hsent : (memoryRlCheck x.clock.limiter endpoint st).state.windowStartedAt ≤ x.clock.limitHeader :=
    hle.trans (hread.reset.trans (hread.retry.trans hread.header))
  have hdesignates := designates_iff httl hsent hretry
  have hpos : 0 < x.clock.limiter := hclock.positive _ List.mem_cons_self
  refine ⟨_, hafter, headers_limitErrorResponse hctx hread hpos, hlimit, ?_⟩
  rw [← hdesignates, ← getTtlSeconds_eq]
  exact ⟨fun htruth => htruth.reset, fun hinstant => ⟨hlimit, hinstant, hinstant⟩⟩

/-- A limit of one decision in a window of sixty seconds. -/
def limitedHost : Host := .ofTables [("GATEWAY_RATE_LIMIT_ROUTES_DECIDE_LIMIT", "1")] []

/-- The limiter after one decision at time 1000. -/
def limitedRun : List MemoryRecord × MemoryRlState :=
  exec memoryStep (memoryRlFresh (backendEndpointLimit limitedHost.getenv) (backendTtlSeconds limitedHost.getenv))
    [⟨1000, 0⟩]

/-- The gateway with this limiter. -/
def limitedWorld : World :=
  ⟨{ Gateway.atStart 0 with rlInitialized := true, rateLimiter := some (.memory limitedRun.2) }, []⟩

/-- A second decision, at this time. -/
def secondDecision (now : ℤ) : Exchange := { Exchange.delivering [] none with clock := .still now }

/-- The limiter after the second decision. -/
def afterSecond (now : ℤ) : MemoryRlState := (memoryRlCheck now .routesDecide limitedRun.2).state

/-- In the second in which the window begins, the headers are true. -/
theorem limit_headers_at_once :
    (rateLimitCheck limitedHost (secondDecision 1000) .routesDecide none limitedWorld).1 = .exceeded ∧
      TellsTruth (limitAnnouncement limitedHost (secondDecision 1000) .routesDecide) .routesDecide (afterSecond 1000)
        1000 := by
  have hrefused : (rateLimitCheck limitedHost (secondDecision 1000) .routesDecide none limitedWorld).1 = .exceeded := by
    decide +kernel
  refine ⟨hrefused, ?_⟩
  obtain ⟨st', hst', -, -, htruth⟩ := limit_headers_iff limitedHost (secondDecision 1000) .routesDecide {} limitedWorld
    none limitedRun.1 limitedRun.2 (run_exec _ _ _) rfl ⟨by decide, by decide⟩ ⟨le_rfl, le_rfl, le_rfl, by decide⟩
    ⟨by decide, by decide, by decide⟩ hrefused
  have hafter := (rateLimitCheck_memory rfl hrefused).2
  obtain rfl := Limiter.memory.inj (Option.some.inj (hafter.symm.trans hst'))
  exact htruth.mpr (by decide)

/-- **Half a window later** the headers are thirty seconds off: they name 1090, and a retry at 1060 is allowed. -/
theorem limit_headers_late :
    (rateLimitCheck limitedHost (secondDecision 1030) .routesDecide none limitedWorld).1 = .exceeded ∧
      limitAnnouncement limitedHost (secondDecision 1030) .routesDecide = ⟨1, 1090, 60⟩ ∧
      (memoryRlCheck 1060 .routesDecide (afterSecond 1030)).result = .allowed ∧
      ¬ TellsTruth (limitAnnouncement limitedHost (secondDecision 1030) .routesDecide) .routesDecide (afterSecond 1030)
        1030 := by
  have hannounced : limitAnnouncement limitedHost (secondDecision 1030) .routesDecide = ⟨1, 1090, 60⟩ := by
    decide +kernel
  have hallowed : (memoryRlCheck 1060 .routesDecide (afterSecond 1030)).result = .allowed := by decide +kernel
  refine ⟨by decide +kernel, hannounced, hallowed, fun htruth => ?_⟩
  rw [hannounced] at htruth
  have hrefused := htruth.reset.1 1060 (by decide) (by decide)
  rw [hallowed] at hrefused
  cases hrefused

end CGateway
