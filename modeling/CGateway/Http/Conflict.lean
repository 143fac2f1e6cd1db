import CGateway.Http.DecidePath
import CGateway.Http.ParseRequest

/-! # Which refusal a decide request gets

The conflict contract ranks the reasons to refuse `POST /api/v1/routes/decide`: when several hold, the
one with the smallest number is to be reported. The checks are made in another order: authentication and
the tenant header come before the limit, backpressure and the Redis limiter before validation.

* `ConflictType`, `Dominant` — the reasons with their ranks, and the one to be reported;
* `Refuses` — when a reason holds, for a request in a gateway;
* `BranchEnds.rateLimit_iff`, … — when a reason is the one that is reported. -/

namespace CGateway

open Bytes CString Json

/-! ### The contract -/

/-- The reasons of `conflict_type_t` for which the gateway itself refuses a request. -/
inductive ConflictType where
  | rateLimit
  | authGateway
  | requestGateway
  | routerRuntime
  deriving DecidableEq, Repr

/-- The rank of a reason. -/
def ConflictType.priority : ConflictType → ℕ
  | rateLimit => 1
  | authGateway => 2
  | requestGateway => 3
  | routerRuntime => 5

/-- The status with which a reason is reported. -/
def ConflictType.status : ConflictType → StatusLine
  | rateLimit => .tooManyRequests
  | authGateway => .unauthorized
  | requestGateway => .badRequest
  | routerRuntime => .serviceUnavailable

/-- The error codes with which a reason is reported. -/
def ConflictType.codes : ConflictType → List String
  | rateLimit => ["rate_limit_exceeded"]
  | authGateway => ["unauthorized"]
  | requestGateway => ["invalid_request"]
  | routerRuntime => ["service_overloaded", "unavailable"]

/-- The response reports this reason. -/
def ConflictType.ReportedBy (c : ConflictType) (r : Response) : Prop :=
  r.status = c.status ∧ ∃ code ∈ c.codes, errorHead (ascii code) <+: r.body

/-- The reason holds, and none of a smaller number does. -/
def Dominant (holds : ConflictType → Prop) (c : ConflictType) : Prop :=
  holds c ∧ ∀ c', holds c' → c.priority ≤ c'.priority

/-- At least two reasons hold. -/
def Several (holds : ConflictType → Prop) : Prop := ∃ c c', c ≠ c' ∧ holds c ∧ holds c'

/-- There is one response, and it reports the dominant reason. -/
def ConflictResolved (holds : ConflictType → Prop) (effects : List Effect) : Prop :=
  ∀ c, Dominant holds c → ∃ r, responses effects = [r] ∧ c.ReportedBy r

section Contract

variable {holds : ConflictType → Prop} {effects : List Effect} {c c' : ConflictType}

/-- No two reasons have the same rank. -/
theorem ConflictType.priority_injective : Function.Injective ConflictType.priority := by
  intro c c' heq
  cases c <;> cases c' <;> first | rfl | cases heq

/-- There is one dominant reason at most. -/
theorem Dominant.unique (hc : Dominant holds c) (hc' : Dominant holds c') : c = c' :=
  ConflictType.priority_injective (Nat.le_antisymm (hc.2 c' hc'.1) (hc'.2 c hc.1))

/-- An exhausted limit is dominant wherever it holds. -/
theorem dominant_rateLimit (hlimit : holds .rateLimit) : Dominant holds .rateLimit :=
  ⟨hlimit, fun c _ => by cases c <;> decide⟩

/-- The conflict is resolved just when the dominant reason is reported. -/
theorem Dominant.resolved_iff (hc : Dominant holds c) :
    ConflictResolved holds effects ↔ ∃ r, responses effects = [r] ∧ c.ReportedBy r := by
  constructor
  · intro hall
    exact hall c hc
  · intro hreported c' hc'
    rw [← hc.unique hc']
    exact hreported

/-- A response with another status reports another reason. -/
theorem not_reported {r : Response} (hr : responses effects = [r]) (hstatus : r.status ≠ c.status) :
    ¬ ∃ r, responses effects = [r] ∧ c.ReportedBy r := by
  rintro ⟨r', hr', hreported⟩
  obtain rfl : r = r' := by simpa [hr] using hr'
  exact hstatus hreported.1

/-- Of several reasons, one that is neither the limit nor authentication is validation. -/
theorem Several.requestGateway (hseveral : Several holds) (hlimit : ¬ holds .rateLimit)
    (hauth : ¬ holds .authGateway) : holds .requestGateway ∧ holds .routerRuntime := by
  obtain ⟨c, c', hne, hc, hc'⟩ := hseveral
  cases c <;> cases c' <;> first | contradiction | exact ⟨hc, hc'⟩ | exact ⟨hc', hc⟩

/-- Where authentication is one of several reasons, and the limit is not, there is a third kind. -/
theorem Several.other (hseveral : Several holds) (hlimit : ¬ holds .rateLimit) :
    holds .requestGateway ∨ holds .routerRuntime := by
  obtain ⟨c, c', hne, hc, hc'⟩ := hseveral
  cases c <;> cases c' <;>
    first | contradiction | exact .inl hc | exact .inl hc' | exact .inr hc | exact .inr hc'

end Contract

/-! ### Error bodies -/

/-- The body of an error whose context fits begins with its code. -/
theorem errorHead_isPrefix {ctx : RequestContext} (hfits : ctx.Fits) (status : StatusLine)
    {code message : String} (hshort : (ascii code).length + (ascii message).length ≤ 1000) :
    errorHead (ascii code) <+: (errorResponse status code message ctx).body := by
  have hlength := length_errorBody (ascii code) (ascii message) ctx
  have hrequest := hfits.requestId
  have htrace := hfits.traceId
  have htenant := hfits.tenantId
  have hbounded : boundedErrorBody (ascii code) (ascii message) ctx = errorBody (ascii code) (ascii message) ctx :=
    if_pos (show (errorBody (ascii code) (ascii message) ctx).length < 65536 by omega)
  simp only [errorResponse]
  rw [hbounded, errorBody, List.append_assoc, List.append_assoc, List.append_assoc]
  exact List.prefix_append ..

/-- An error with a code of the reason, under its status, reports the reason. -/
theorem ConflictType.reportedBy_errorResponse {c : ConflictType} {ctx : RequestContext}
    (hfits : ctx.Fits) {code message : String} (hcode : code ∈ c.codes)
    (hshort : (ascii code).length + (ascii message).length ≤ 1000) :
    c.ReportedBy (errorResponse c.status code message ctx) :=
  ⟨rfl, code, hcode, errorHead_isPrefix hfits _ hshort⟩

/-- A limit error reports an exhausted limit. -/
theorem limitErrorResponse_reports (h : Host) (x : Exchange) (endpoint : RlEndpoint)
    {ctx : RequestContext} (hfits : ctx.Fits) :
    ConflictType.rateLimit.ReportedBy (limitErrorResponse h x endpoint ctx) := by
  refine ⟨status_limitErrorResponse h x endpoint ctx, "rate_limit_exceeded", by decide, ?_⟩
  unfold limitErrorResponse
  split
  · rw [body_rateLimitResponse, rateLimitBody]
    simp only [List.append_assoc]
    exact List.prefix_append ..
  · exact errorHead_isPrefix hfits _ (by decide)

/-! ### Requests -/

section Requests

variable (h : Host) (x : Exchange) (rq : HttpRequest) (g : Gateway)

/-- When a reason holds for a request to the decide route. -/
def Refuses : ConflictType → Prop
  | .rateLimit => limitVerdict h x g .routesDecide rq.ctx.tenant? = .exceeded
  | .authGateway =>
      (rateLimitInitIfNeeded h x g).authRequired = true ∧ rq.hasAuthHeader = false
  | .requestGateway =>
      rq.hasTenantHeader = false ∨ rq.body = [] ∨
        validateDecideRequest h.jsonLoads rq.body rq.ctx = none
  | .routerRuntime => routerOverloaded h x g = true ∨ ∀ text, x.natsDecide text = none

/-- The gate lets the request pass. -/
def gateOpen : Bool := !(g.authRequired && !rq.hasAuthHeader)

/-- When the dominant one of several reasons is reported: an exhausted limit is seen by a request that
passes the gate and names a tenant; missing authentication by a gate that is armed already; a request
that is invalid at a gate that lets it pass, and then for want of a tenant, or behind a limiter that
works, for want of a body, or where neither backpressure nor the Redis limiter comes first. -/
structure Resolvable : Prop where
  rateLimit : Refuses h x rq g .rateLimit → gateOpen rq g = true ∧ rq.hasTenantHeader = true
  authGateway : ¬ Refuses h x rq g .rateLimit → Refuses h x rq g .authGateway →
    gateOpen rq g = false
  requestGateway : ¬ Refuses h x rq g .rateLimit → ¬ Refuses h x rq g .authGateway →
    gateOpen rq g = true ∧ (rq.hasTenantHeader = false ∨ limitVerdict h x g .routesDecide rq.ctx.tenant? ≠ .error ∧
        (rq.body = [] ∨ routerOverloaded h x g = false ∧ redisDenies h x g = false))

end Requests

section Ways

variable {h : Host} {x : Exchange} {rq : HttpRequest} {g : Gateway} {rest : List Effect}

theorem gateOpen_of_passes (hauth : (g.authRequired && !rq.hasAuthHeader) = false) :
    gateOpen rq g = true := by rw [gateOpen, hauth]; rfl

theorem gateOpen_of_blocked (hauth : (g.authRequired && !rq.hasAuthHeader) = true) :
    gateOpen rq g = false := by rw [gateOpen, hauth]; rfl

/-- An exhausted limit is reported just to requests that pass the gate and name a tenant. -/
theorem BranchEnds.rateLimit_iff (hends : BranchEnds h x rq .routesDecide g rest)
    (hfits : rq.ctx.Fits) (hlimit : Refuses h x rq g .rateLimit) :
    (∃ r, responses rest = [r] ∧ ConflictType.rateLimit.ReportedBy r) ↔
      gateOpen rq g = true ∧ rq.hasTenantHeader = true := by
  cases hends with
  | unauthorized hauth =>
    refine iff_of_false (not_reported rfl nofun) ?_
    rw [gateOpen_of_blocked hauth]
    exact nofun
  | noTenant hauth htenant =>
    refine iff_of_false (not_reported rfl nofun) ?_
    rw [htenant]
    exact nofun
  | limited hauth htenant hverdict hlimited commands =>
    have hreports := limitErrorResponse_reports h x .routesDecide hfits
    exact iff_of_true ⟨_, responses_stopped .., hreports⟩ ⟨gateOpen_of_passes hauth, htenant⟩
  -- The other two ways are those of another verdict.
  | limiterError hauth htenant hverdict hroute commands =>
    exact absurd (hlimit.symm.trans hverdict) nofun
  | admitted hauth htenant hverdict commands hends =>
    exact absurd (hlimit.symm.trans hverdict) nofun

/-- Behind its entry, `handle_decide` reports no missing authentication of its own. -/
theorem DecideEnds.not_unauthorized (hends : DecideEnds h x rq.body rq.ctx (rateLimitInitIfNeeded h x g) rest)
    (htenant : rq.hasTenantHeader = true)
    (hother : Refuses h x rq g .requestGateway ∨ Refuses h x rq g .routerRuntime) :
    ∃ r, responses rest = [r] ∧ r.status ≠ .unauthorized := by
  cases hends with
  | empty hbody => exact ⟨_, rfl, nofun⟩
  | overloaded hbody hactive hstatus => exact ⟨_, rfl, by rw [hstatus]; exact nofun⟩
  | denied hbody hactive hdeny => exact ⟨_, rfl, nofun⟩
  | forwarded hbody hactive hdeny event hends =>
    rw [responses_append, responses_tracking, List.nil_append]
    cases hends with
    | invalid hdto => exact ⟨_, rfl, nofun⟩
    | unbuildable hdto hbuild => exact ⟨_, rfl, nofun⟩
    | unavailable hdto hbuild hnats => exact ⟨_, rfl, nofun⟩
    | answered hdto hbuild hnats hstatus =>
      -- A request that the Router answers is valid, and the Router is neither down nor overloaded.
      exfalso
      rcases hother with (hno | hempty | hinvalid) | (hoverloaded | hdown)
      · rw [htenant] at hno
        cases hno
      · exact hbody hempty
      · rw [hdto] at hinvalid
        cases hinvalid
      · exact hactive (by simpa [routerOverloaded] using hoverloaded)
      · rw [hdown] at hnats
        cases hnats

/-- Missing authentication is reported just by a gate that is closed. -/
theorem BranchEnds.authGateway_iff (hends : BranchEnds h x rq .routesDecide g rest)
    (hfits : rq.ctx.Fits) (hlimit : ¬ Refuses h x rq g .rateLimit)
    (hother : Refuses h x rq g .requestGateway ∨ Refuses h x rq g .routerRuntime) :
    (∃ r, responses rest = [r] ∧ ConflictType.authGateway.ReportedBy r) ↔ gateOpen rq g = false := by
  cases hends with
  | unauthorized hauth =>
    refine iff_of_true ⟨_, rfl, ?_⟩ (gateOpen_of_blocked hauth)
    exact ConflictType.reportedBy_errorResponse hfits (by decide) (by decide)
  | noTenant hauth htenant =>
    refine iff_of_false (not_reported rfl nofun) ?_
    rw [gateOpen_of_passes hauth]
    exact nofun
  | limited hauth htenant hverdict hlimited commands =>
    rcases hlimited with rfl | ⟨-, hroute⟩
    · exact absurd hverdict hlimit
    · exact absurd rfl hroute
  | limiterError hauth htenant hverdict hroute commands =>
    refine iff_of_false (not_reported (responses_stopped ..) nofun) ?_
    rw [gateOpen_of_passes hauth]
    exact nofun
  | @admitted hauth htenant hverdict commands rest hends =>
    obtain ⟨r, hr, hstatus⟩ := hends.not_unauthorized htenant hother
    refine iff_of_false (not_reported ((responses_admitted ..).trans hr) hstatus) ?_
    rw [gateOpen_of_passes hauth]
    exact nofun

/-- Behind its entry, `handle_decide` reports an invalid request for want of a body, or where neither
backpressure nor the Redis limiter comes first. -/
theorem DecideEnds.requestGateway_iff (hends : DecideEnds h x rq.body rq.ctx (rateLimitInitIfNeeded h x g) rest)
    (hfits : rq.ctx.Fits) (htenant : rq.hasTenantHeader = true) (hrequest : Refuses h x rq g .requestGateway) :
    (∃ r, responses rest = [r] ∧ ConflictType.requestGateway.ReportedBy r) ↔
      rq.body = [] ∨ routerOverloaded h x g = false ∧ redisDenies h x g = false := by
  cases hends with
  | empty hbody =>
    refine iff_of_true ⟨_, rfl, ?_⟩ (.inl hbody)
    exact ConflictType.reportedBy_errorResponse hfits (by decide) (by decide)
  | overloaded hbody hactive hstatus =>
    refine iff_of_false (not_reported rfl (by rw [hstatus]; exact nofun)) ?_
    have hyes : routerOverloaded h x g = true := by simpa [routerOverloaded] using hactive
    rw [hyes]
    rintro (hempty | ⟨hno, -⟩)
    · exact hbody hempty
    · cases hno
  | denied hbody hactive hdeny =>
    refine iff_of_false (not_reported rfl nofun) ?_
    have hyes : redisDenies h x g = true := by simpa [redisDenies] using hdeny
    rw [hyes]
    rintro (hempty | ⟨-, hno⟩)
    · exact hbody hempty
    · cases hno
  | forwarded hbody hactive hdeny event hends =>
    rw [responses_append, responses_tracking, List.nil_append]
    have hinvalid : validateDecideRequest h.jsonLoads rq.body rq.ctx = none := by
      rcases hrequest with hno | hempty | hinvalid
      · rw [htenant] at hno
        cases hno
      · exact absurd hempty hbody
      · exact hinvalid
    have hpasses : routerOverloaded h x g = false ∧ redisDenies h x g = false := by
      constructor
      · simpa [routerOverloaded] using hactive
      · simpa [redisDenies] using hdeny
    -- Every way but the first is that of a valid request.
    cases hends with
    | invalid hdto =>
      refine iff_of_true ⟨_, rfl, ?_⟩ (.inr hpasses)
      exact ConflictType.reportedBy_errorResponse hfits (by decide) (by decide)
    | unbuildable hdto hbuild => rw [hinvalid] at hdto; cases hdto
    | unavailable hdto hbuild hnats => rw [hinvalid] at hdto; cases hdto
    | answered hdto hbuild hnats hstatus => rw [hinvalid] at hdto; cases hdto

/-- An invalid request is reported where no check of a later rank is made before. -/
theorem BranchEnds.requestGateway_iff (hends : BranchEnds h x rq .routesDecide g rest) (hfits : rq.ctx.Fits)
    (hlimit : ¬ Refuses h x rq g .rateLimit) (hrequest : Refuses h x rq g .requestGateway) :
    (∃ r, responses rest = [r] ∧ ConflictType.requestGateway.ReportedBy r) ↔
      gateOpen rq g = true ∧ (rq.hasTenantHeader = false ∨
        limitVerdict h x g .routesDecide rq.ctx.tenant? ≠ .error ∧
          (rq.body = [] ∨ routerOverloaded h x g = false ∧ redisDenies h x g = false)) := by
  cases hends with
  | unauthorized hauth =>
    refine iff_of_false (not_reported rfl nofun) ?_
    rw [gateOpen_of_blocked hauth]
    exact nofun
  | noTenant hauth htenant =>
    refine iff_of_true ⟨_, rfl, ?_⟩ ⟨gateOpen_of_passes hauth, .inl htenant⟩
    exact ConflictType.reportedBy_errorResponse hfits (by decide) (by decide)
  | limited hauth htenant hverdict hlimited commands =>
    rcases hlimited with rfl | ⟨-, hroute⟩
    · exact absurd hverdict hlimit
    · exact absurd rfl hroute
  | limiterError hauth htenant hverdict hroute commands =>
    refine iff_of_false (not_reported (responses_stopped ..) nofun) ?_
    rw [htenant]
    rintro ⟨-, hno | ⟨hworks, -⟩⟩
    · cases hno
    · exact hworks hverdict
  | @admitted hauth htenant hverdict commands rest hends =>
    have hworks : limitVerdict h x g .routesDecide rq.ctx.tenant? ≠ .error := by
      rw [show limitVerdict h x g .routesDecide rq.ctx.tenant? = .allowed from hverdict]
      exact nofun
    rw [responses_admitted, hends.requestGateway_iff hfits htenant hrequest, gateOpen_of_passes hauth, htenant]
    simp [hworks]

end Ways

section Connection

variable {h : Host} {x : Exchange} {rq : HttpRequest} {g : Gateway}

/-- **The conflict contract, exactly.** When several reasons to refuse a request to the decide route
hold, the response reports the dominant one if and only if the order of the checks lets it. -/
theorem conflict_resolved_iff (hparse : parseRequest (firstRead x) = some rq)
    (hmethod : rq.method = ascii "POST") (hpath : rq.path = ascii "/api/v1/routes/decide")
    (hseveral : Several (Refuses h x rq g)) :
    ConflictResolved (Refuses h x rq g) (httpStep h g x).2 ↔ Resolvable h x rq g := by
  have hpost : rq.isDecidePost = true := by
    rw [HttpRequest.isDecidePost, hmethod, hpath]
    decide
  have hendpoint : rq.decideEndpoint = .routesDecide := by
    rw [HttpRequest.decideEndpoint, hpath]
    decide
  have hfits := parseRequest_fits hparse
  obtain ⟨rest, heffects, hends⟩ := httpStep_branchEnds (h := h) (g := g) hparse hpost
  rw [hendpoint] at hends
  rw [heffects]
  -- One case for each reason that can be dominant among several.
  by_cases hlimit : Refuses h x rq g .rateLimit
  · rw [(dominant_rateLimit hlimit).resolved_iff]
    refine (hends.rateLimit_iff hfits hlimit).trans ⟨fun hreported => ?_, fun hres => ?_⟩
    · exact ⟨fun _ => hreported, fun hno => absurd hlimit hno, fun hno => absurd hlimit hno⟩
    · exact hres.rateLimit hlimit
  by_cases hauth : Refuses h x rq g .authGateway
  · have hdominant : Dominant (Refuses h x rq g) .authGateway := by
      refine ⟨hauth, fun c hc => ?_⟩
      cases c with
      | rateLimit => exact absurd hc hlimit
      | _ => decide
    rw [hdominant.resolved_iff]
    refine (hends.authGateway_iff hfits hlimit (hseveral.other hlimit)).trans
      ⟨fun hreported => ?_, fun hres => ?_⟩
    · exact ⟨fun hyes => absurd hyes hlimit, fun _ _ => hreported, fun _ hno => absurd hauth hno⟩
    · exact hres.authGateway hlimit hauth
  · obtain ⟨hrequest, -⟩ := hseveral.requestGateway hlimit hauth
    have hdominant : Dominant (Refuses h x rq g) .requestGateway := by
      refine ⟨hrequest, fun c hc => ?_⟩
      cases c with
      | rateLimit => exact absurd hc hlimit
      | authGateway => exact absurd hc hauth
      | _ => decide
    rw [hdominant.resolved_iff]
    refine (hends.requestGateway_iff hfits hlimit hrequest).trans
      ⟨fun hreported => ?_, fun hres => ?_⟩
    · exact ⟨fun hyes => absurd hyes hlimit, fun _ hyes => absurd hyes hauth, fun _ _ => hreported⟩
    · exact hres.requestGateway hlimit hauth

end Connection

/-- A process that grants one decision in a minute. -/
def strictHost : Host := sampleHost [("GATEWAY_RATE_LIMIT_ROUTES_DECIDE_LIMIT", "1")]

/-- A request to the decide route with these header lines and this body. -/
def decideRequest (headers : String) (body : List UInt8) : Exchange :=
  .delivering (requestText "POST /api/v1/routes/decide HTTP/1.1" headers body) (some sampleReply)

/-- The gateway after the one decision that it grants. -/
def exhaustedGateway : Gateway :=
  (httpStep strictHost (Gateway.atStart 900) (decideRequest "X-Tenant-ID: acme\r\n" sampleBody)).1

/-- A request without a tenant header, as it is parsed. -/
def tenantlessRequest : HttpRequest :=
  ⟨ascii "POST", ascii "/api/v1/routes/decide", {}, false, false, sampleBody⟩

/-- **An exhausted limit is not reported.** The limit is exhausted and the tenant header is missing; the
response is the 400 of the third rank, where the first rank asks for a 429. -/
theorem missingTenant_hides_exhausted_limit :
    parseRequest (firstRead (decideRequest "" sampleBody)) = some tenantlessRequest ∧
      Dominant (Refuses strictHost (decideRequest "" sampleBody) tenantlessRequest exhaustedGateway)
        .rateLimit ∧
      Refuses strictHost (decideRequest "" sampleBody) tenantlessRequest exhaustedGateway
        .requestGateway ∧
      (responses (httpStep strictHost exhaustedGateway (decideRequest "" sampleBody)).2).map
        (·.status.code) = [400] ∧
      ¬ ConflictResolved
        (Refuses strictHost (decideRequest "" sampleBody) tenantlessRequest exhaustedGateway)
        (httpStep strictHost exhaustedGateway (decideRequest "" sampleBody)).2 := by
  have hfacts : parseRequest (firstRead (decideRequest "" sampleBody)) = some tenantlessRequest ∧
      limitVerdict strictHost (decideRequest "" sampleBody) exhaustedGateway .routesDecide
        tenantlessRequest.ctx.tenant? = .exceeded ∧
      (responses (httpStep strictHost exhaustedGateway (decideRequest "" sampleBody)).2).map (·.status) =
        [.badRequest] := by decide +kernel
  obtain ⟨hparse, hlimit, hstatus⟩ := hfacts
  have hdominant : Dominant
      (Refuses strictHost (decideRequest "" sampleBody) tenantlessRequest exhaustedGateway)
      .rateLimit := dominant_rateLimit hlimit
  refine ⟨hparse, hdominant, .inl rfl, ?_, fun hresolved => ?_⟩
  · have hcode := congrArg (List.map StatusLine.code) hstatus
    rwa [List.map_map] at hcode
  · obtain ⟨r, hr, hreported, -⟩ := hresolved .rateLimit hdominant
    rw [hr, List.map_singleton, hreported] at hstatus
    exact absurd hstatus (by decide)

/-- A request with a body that is no decide request, as it is parsed. -/
def garbledRequest : HttpRequest :=
  ⟨ascii "POST", ascii "/api/v1/routes/decide", { tenantId := ascii "acme" }, true, false,
    ascii "garbled"⟩

/-- An exhausted limit is reported over an invalid body. -/
theorem exhaustedLimit_reported_over_invalid_body :
    ConflictResolved
      (Refuses strictHost (decideRequest "X-Tenant-ID: acme\r\n" (ascii "garbled")) garbledRequest
        exhaustedGateway)
      (httpStep strictHost exhaustedGateway
        (decideRequest "X-Tenant-ID: acme\r\n" (ascii "garbled"))).2 := by
  have hfacts : parseRequest (firstRead (decideRequest "X-Tenant-ID: acme\r\n" (ascii "garbled"))) =
        some garbledRequest ∧
      limitVerdict strictHost (decideRequest "X-Tenant-ID: acme\r\n" (ascii "garbled")) exhaustedGateway
        .routesDecide garbledRequest.ctx.tenant? = .exceeded ∧
      validateDecideRequest strictHost.jsonLoads garbledRequest.body garbledRequest.ctx = none := by decide +kernel
  obtain ⟨hparse, hlimit, hinvalid⟩ := hfacts
  refine (conflict_resolved_iff hparse rfl rfl
    ⟨.rateLimit, .requestGateway, nofun, hlimit, .inr (.inr hinvalid)⟩).mpr ?_
  exact ⟨fun _ => by decide, fun hno => absurd hlimit hno, fun hno => absurd hlimit hno⟩

end CGateway
