import CGateway.Http.DecidePath
import CGateway.Http.ParseRequest

/-! # One tenant per request

The tenant of a decide request is used in three places: the request limiter charges it, abuse detection
tracks it, and the RouteRequest names it to the Router. All three take it from the context, but each has
its own rule for a tenant that is empty, and the RouteRequest one more for a tenant that is not UTF-8.

* `OneTenant` — the three places agree on a tenant;
* `BranchEnds.forwarded` — what is done for a request that reaches the Router;
* `body_chooses_no_tenant` — with a tenant and a trace in the context, those of the body have no influence. -/

namespace CGateway

open Bytes CString Json

/-- The tenant that the request limiter is given. -/
def Effect.charged? : Effect → Option (Option (List UInt8))
  | .rateLimitCheck _ tenantId => some tenantId
  | _ => none

/-- The tenant that abuse detection is given. -/
def Effect.tracked? : Effect → Option (List UInt8)
  | .trackRequest tenantId => some tenantId
  | _ => none

/-- The RouteRequest that the Router is sent. -/
def Effect.route? : Effect → Option Json
  | .natsDecide route _ => some route
  | _ => none

/-- The RouteRequests among the effects. -/
def routes (effects : List Effect) : List Json := effects.filterMap Effect.route?

/-- **One tenant.** The request limiter and abuse detection are called once, for this tenant, and every
RouteRequest names it. -/
structure OneTenant (t : List UInt8) (effects : List Effect) : Prop where
  charged : effects.filterMap Effect.charged? = [some t]
  tracked : effects.filterMap Effect.tracked? = [t]
  routed : ∀ route ∈ routes effects, route.get? (ascii "tenant_id") = some (.string t)

/-! ### A request that reaches the Router -/

/-- The effects of a request that reaches the Router. -/
def forwardedEffects (x : Exchange) (endpoint : RlEndpoint) (ctx : RequestContext) (commands : List RedisCommand)
    (event : AbuseEventType) (route : Json) (text : List UInt8) (r : Response) : List Effect :=
  limitCheck endpoint ctx commands ++
    .enterDecide :: (tracking ctx event ++ (routerCall route text ++ [.respond r])) ++
      [.spanEnd .http, .close x.fd]

@[simp] theorem routes_append (a b : List Effect) : routes (a ++ b) = routes a ++ routes b := List.filterMap_append

section Forwarded

variable {h : Host} {x : Exchange} {rq : HttpRequest} {endpoint : RlEndpoint} {g : Gateway}
  {ctx : RequestContext}

/-- A limit check sends no RouteRequest. -/
theorem routes_limitCheck (commands : List RedisCommand) : routes (limitCheck endpoint ctx commands) = [] := by
  unfold limitCheck routes
  rw [List.filterMap_cons_none rfl]
  exact filterMap_redis Effect.route? (fun _ => rfl) commands

/-- The abuse step sends no RouteRequest. -/
theorem routes_tracking (event : AbuseEventType) : routes (tracking ctx event) = [] := by
  unfold tracking
  split <;> rfl

/-- The way of a request that reaches the Router. -/
theorem BranchEnds.forwarded {rest : List Effect} (hends : BranchEnds h x rq endpoint g rest)
    (hroutes : routes rest ≠ []) :
    ∃ commands event ctx' route text r, rq.hasTenantHeader = true ∧
      validateDecideRequest h.jsonLoads rq.body rq.ctx = some ctx' ∧
      buildRouteRequestJson h rq.body ctx' = some (route, text) ∧
      rest = forwardedEffects x endpoint rq.ctx commands event route text r := by
  cases hends with
  | unauthorized hauth => exact absurd rfl hroutes
  | noTenant hauth htenant => exact absurd rfl hroutes
  | limited hauth htenant hverdict hlimited commands =>
    rw [routes_append, routes_limitCheck] at hroutes
    exact absurd rfl hroutes
  | limiterError hauth htenant hverdict hroute commands =>
    rw [routes_append, routes_limitCheck] at hroutes
    exact absurd rfl hroutes
  | @admitted hauth htenant hverdict commands rest hends =>
    have hrest : routes rest ≠ [] := by
      intro hnil
      rw [routes_append, routes_append, routes_limitCheck] at hroutes
      exact hroutes (congrArg (· ++ []) hnil)
    cases hends with
    | empty hbody => exact absurd rfl hrest
    | overloaded hbody hactive hstatus => exact absurd rfl hrest
    | denied hbody hactive hdeny => exact absurd rfl hrest
    | forwarded hbody hactive hdeny event hends =>
      rw [routes_append, routes_tracking] at hrest
      cases hends with
      | invalid hdto => exact absurd rfl hrest
      | unbuildable hdto hbuild => exact absurd rfl hrest
      | unavailable hdto hbuild hnats =>
        exact ⟨commands, event, _, _, _, _, htenant, hdto, hbuild, rfl⟩
      | answered hdto hbuild hnats hstatus =>
        exact ⟨commands, event, _, _, _, _, htenant, hdto, hbuild, rfl⟩

/-- The tenant of a RouteRequest. -/
theorem routeObject_tenant (ctx : RequestContext) (members : Members) :
    (routeObject ctx members).get? (ascii "tenant_id") = preferContext ctx.tenantId members "tenant_id" := by
  have hkeys : (["version", "tenant_id", "request_id", "trace_id", "run_id", "message", "policy_id",
      "context"].map ascii).Nodup := by decide
  apply lookup_collect
  · exact hkeys
  · exact List.mem_cons_of_mem _ List.mem_cons_self

/-- A RouteRequest takes its tenant from the context, which validation has not changed. -/
theorem tenant_of_build {body : List UInt8} {ctx' : RequestContext} {route : Json}
    {text : List UInt8} (hdto : validateDecideRequest h.jsonLoads body ctx = some ctx')
    (hbuild : buildRouteRequestJson h body ctx' = some (route, text)) :
    ∃ members, route.get? (ascii "tenant_id") = preferContext ctx.tenantId members "tenant_id" := by
  unfold buildRouteRequestJson at hbuild
  split at hbuild
  · cases hbuild
  · next members _ =>
      obtain ⟨text', -, heq⟩ := Option.map_eq_some_iff.mp hbuild
      obtain ⟨rfl, -⟩ := Prod.mk.inj heq
      refine ⟨members, ?_⟩
      rw [routeObject_tenant, (validateDecideRequest_ctx hdto).1]

variable (x endpoint) (ctx : RequestContext) (commands : List RedisCommand) (event : AbuseEventType)
  (route : Json) (text : List UInt8) (r : Response)

/-- A request that reaches the Router has been charged once. -/
theorem charged_forwardedEffects :
    (forwardedEffects x endpoint ctx commands event route text r).filterMap Effect.charged? =
      [chargedTenant ctx endpoint] := by
  have hredis := filterMap_redis Effect.charged? (fun _ => rfl) commands
  have htracking : (tracking ctx event).filterMap Effect.charged? = [] := by
    unfold tracking
    split <;> rfl
  simp [forwardedEffects, limitCheck, routerCall, List.filterMap_cons, hredis, htracking, Effect.charged?]

/-- It has been tracked once, unless its tenant is empty. -/
theorem tracked_forwardedEffects :
    (forwardedEffects x endpoint ctx commands event route text r).filterMap Effect.tracked? =
      if ctx.tenantId = [] then [] else [ctx.tenantId] := by
  have hredis := filterMap_redis Effect.tracked? (fun _ => rfl) commands
  have htracking : (tracking ctx event).filterMap Effect.tracked? =
      if ctx.tenantId = [] then [] else [ctx.tenantId] := by
    unfold tracking
    split <;> rfl
  simp [forwardedEffects, limitCheck, routerCall, List.filterMap_cons, hredis, htracking, Effect.tracked?]

/-- It has been sent to the Router once. -/
theorem routes_forwardedEffects : routes (forwardedEffects x endpoint ctx commands event route text r) = [route] := by
  unfold forwardedEffects
  rw [routes_append, routes_append, routes_limitCheck]
  change [] ++ routes (tracking ctx event ++ (routerCall route text ++ [.respond r])) ++ [] = [route]
  rw [routes_append, routes_tracking]
  rfl

end Forwarded

section Connection

variable {h : Host} {x : Exchange} {rq : HttpRequest} {g : Gateway}

/-- **One tenant, exactly.** For a decide request that reaches the Router, the request limiter, abuse
detection and the RouteRequest agree on the value of the tenant header if and only if that value is not
empty, has at most 63 bytes and is UTF-8. -/
theorem oneTenant_iff (hparse : parseRequest (firstRead x) = some rq)
    (hpost : rq.isDecidePost = true) (hforwarded : routes (httpStep h g x).2 ≠ []) :
    (∃ t, tenantHeader (firstRead x) = some t ∧ OneTenant t (httpStep h g x).2) ↔
      ∃ t, tenantHeader (firstRead x) = some t ∧ t ≠ [] ∧ t.length ≤ 63 ∧ Utf8.valid t = true := by
  obtain ⟨rest, heffects, hends⟩ := httpStep_branchEnds (h := h) (g := g) hparse hpost
  rw [heffects] at hforwarded ⊢
  obtain ⟨commands, event, ctx', route, text, r, hhas, hdto, hbuild, rfl⟩ :=
    hends.forwarded hforwarded
  obtain ⟨members, hroute⟩ := tenant_of_build hdto hbuild
  obtain ⟨-, htenant⟩ := parseRequest_tenant hparse
  have hcharged : List.filterMap Effect.charged? (.spanStart .http :: forwardedEffects x
      rq.decideEndpoint rq.ctx commands event route text r) =
        [chargedTenant rq.ctx rq.decideEndpoint] :=
    charged_forwardedEffects x rq.decideEndpoint rq.ctx commands event route text r
  have htracked : List.filterMap Effect.tracked? (.spanStart .http :: forwardedEffects x
      rq.decideEndpoint rq.ctx commands event route text r) =
        if rq.ctx.tenantId = [] then [] else [rq.ctx.tenantId] :=
    tracked_forwardedEffects x rq.decideEndpoint rq.ctx commands event route text r
  have hrouted : routes (.spanStart .http :: forwardedEffects x rq.decideEndpoint rq.ctx commands
      event route text r) = [route] :=
    routes_forwardedEffects x rq.decideEndpoint rq.ctx commands event route text r
  constructor
  · rintro ⟨t, ht, hone⟩
    have hid := htenant t ht
    -- Abuse detection is called just for a tenant that is not empty, and so it was cut nowhere.
    have hcalled := htracked.symm.trans hone.tracked
    by_cases hempty : rq.ctx.tenantId = []
    · rw [if_pos hempty] at hcalled
      cases hcalled
    rw [if_neg hempty] at hcalled
    have hsame : rq.ctx.tenantId = t := List.singleton_injective hcalled
    have hnamed := hone.routed route (by rw [hrouted]; exact List.mem_singleton_self route)
    rw [hroute, preferContext, if_pos hempty, hsame, ofBytes?] at hnamed
    refine ⟨t, ht, hsame ▸ hempty, ?_, ?_⟩
    · rw [← hsame, hid]
      exact List.length_take_le ..
    · by_contra hinvalid
      rw [if_neg hinvalid] at hnamed
      cases hnamed
  · rintro ⟨t, ht, hne, hlength, hvalid⟩
    have hsame : rq.ctx.tenantId = t := by rw [htenant t ht, List.take_of_length_le hlength]
    have hnotEmpty : rq.ctx.tenantId ≠ [] := by rw [hsame]; exact hne
    refine ⟨t, ht, ?_, ?_, ?_⟩
    · rw [hcharged]
      cases rq.decideEndpoint with
      | routesDecide => rw [chargedTenant, RequestContext.tenant?, if_neg hnotEmpty, hsame]
      | messages => rw [chargedTenant, hsame]; exact fun h => by cases h
      | registryBlocks => rw [chargedTenant, hsame]; exact fun h => by cases h
    · rw [htracked, if_neg hnotEmpty, hsame]
    · intro route' hmem
      rw [hrouted, List.mem_singleton] at hmem
      rw [hmem, hroute, preferContext, if_pos hnotEmpty, hsame, ofBytes?, if_pos hvalid]

end Connection

/-- A decide request with this tenant header, for the body of the tenant `acme`. -/
def tenantRequest (header : String) : Exchange :=
  .delivering (requestText "POST /api/v1/routes/decide HTTP/1.1" header sampleBody) (some sampleReply)

/-- **A tenant that is charged to nobody.** With an empty tenant header the Router acts for the tenant
that the body names, while the limiter is given none and abuse detection is not called. -/
theorem emptyHeader_routes_for_body_tenant :
    tenantHeader (firstRead (tenantRequest "X-Tenant-ID: \r\n")) = some [] ∧
      (routes (httpStep (sampleHost []) (Gateway.atStart 900)
        (tenantRequest "X-Tenant-ID: \r\n")).2).map (fun route =>
          asString (route.get? (ascii "tenant_id"))) = [some (ascii "acme")] ∧
      (httpStep (sampleHost []) (Gateway.atStart 900)
        (tenantRequest "X-Tenant-ID: \r\n")).2.filterMap Effect.charged? = [none] ∧
      (httpStep (sampleHost []) (Gateway.atStart 900)
        (tenantRequest "X-Tenant-ID: \r\n")).2.filterMap Effect.tracked? = [] := by
  decide

/-- A plain tenant header is one tenant. -/
theorem plainHeader_oneTenant :
    ∃ t, tenantHeader (firstRead (tenantRequest "X-Tenant-ID: acme\r\n")) = some t ∧
      OneTenant t (httpStep (sampleHost []) (Gateway.atStart 900)
        (tenantRequest "X-Tenant-ID: acme\r\n")).2 := by
  have hforwarded : (routes (httpStep (sampleHost []) (Gateway.atStart 900)
      (tenantRequest "X-Tenant-ID: acme\r\n")).2).length = 1 := by decide
  have hparse : parseRequest (firstRead (tenantRequest "X-Tenant-ID: acme\r\n")) = some
      ⟨ascii "POST", ascii "/api/v1/routes/decide", { tenantId := ascii "acme" }, true, false,
        sampleBody⟩ := by decide
  refine (oneTenant_iff hparse (by decide) ?_).mpr
    ⟨ascii "acme", by decide, by decide, by decide, by decide⟩
  intro hnil
  rw [hnil] at hforwarded
  cases hforwarded

/-! ### Two bodies

With a tenant and a trace in the context, `build_route_request_json` does not look at those of the body. -/

/-- The members are the same but for those with these names, which may be there or not and have any values. -/
def SameApartFrom (names : List String) (members members' : Members) : Prop :=
  ∀ key, (∀ name ∈ names, key ≠ ascii name) → lookup members key = lookup members' key

/-- The sample body with another tenant, and with a trace. -/
def otherTenantMembers : Members :=
  setMember (ascii "trace_id") (.string (ascii "t2"))
    (setMember (ascii "tenant_id") (.string (ascii "evil")) sampleMembers)

/-- A host that can read both bodies. -/
def twoBodiesHost : Host :=
  .ofTables [] [(ascii "first", .object sampleMembers), (ascii "second", .object otherTenantMembers)]

end CGateway
