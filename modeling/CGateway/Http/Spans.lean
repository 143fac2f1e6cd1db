import CGateway.Http.Stores

/-! # The life of a span

`handle_client` opens a span for every request that it can read, and `handle_decide` one more for the call to
the Router, as a child of the first. `otel_span_end` frees a span. Attributes and the status of a span are set
right behind its start and right before its end, so they go with these two operations.

* `SpanOp.uses` — the span that an operation reads or writes;
* `SpansEnded` — every span is ended once, and not used afterwards;
* `EndsSpan` — the conditions of each route under which this is so;
* `spanOps_httpStep` — what a connection does to its spans;
* `spans_ended_iff` — the conditions are exact. -/

namespace CGateway

open Bytes CString Machine

/-- The span that an operation needs: the span of a call inherits the trace of its parent. -/
def SpanOp.uses : SpanOp → Option Span
  | .start .http => none
  | .start .nats => some .http
  | .stop span => some span

/-- Every span that is started is ended once, and not used afterwards. -/
structure SpansEnded (ops : List SpanOp) : Prop where
  once : ∀ span, ops.count (.start span) ≤ 1
  ended : ∀ span, ops.count (.stop span) = ops.count (.start span)
  unused : ops.Pairwise fun earlier later => ∀ span, earlier = .stop span → later.uses ≠ some span

/-- What may follow the start of the request's span: its end, or a call in between. -/
def properWays : List (List SpanOp) :=
  [[.stop .http], [.start .nats, .stop .nats, .stop .http]]

/-- What must not: nothing, or two ends. -/
def brokenWays : List (List SpanOp) := [[], [.stop .http, .stop .http]]

theorem ended_mem_properWays : [.stop .http] ∈ properWays := by decide

theorem called_mem_properWays : [.start .nats, .stop .nats, .stop .http] ∈ properWays := by decide

theorem left_mem_brokenWays : [] ∈ brokenWays := by decide

theorem twice_mem_brokenWays : [.stop .http, .stop .http] ∈ brokenWays := by decide

theorem spansEnded_of_proper {ops : List SpanOp} (hops : ops ∈ properWays) : SpansEnded (.start .http :: ops) := by
  have hways : ops = [.stop .http] ∨ ops = [.start .nats, .stop .nats, .stop .http] := by
    simpa [properWays] using hops
  rcases hways with rfl | rfl
  · refine ⟨?_, ?_, by simp [SpanOp.uses]⟩ <;> (intro span; cases span <;> decide)
  · refine ⟨?_, ?_, by simp [SpanOp.uses]⟩ <;> (intro span; cases span <;> decide)

/-- Nothing ends the span, or two operations do. -/
theorem not_spansEnded_of_broken {ops : List SpanOp} (hops : ops ∈ brokenWays) :
    ¬ SpansEnded (.start .http :: ops) := by
  have hcount : ∀ ops ∈ brokenWays,
      (SpanOp.start .http :: ops).count (.stop .http) ≠ (SpanOp.start .http :: ops).count (.start .http) := by
    decide
  exact fun hended => hcount ops hops (hended.ended .http)

/-! ### The routes -/

section Routes

variable (h : Host) (x : Exchange) (g : Gateway) (rq : HttpRequest)

/-- The Redis limiter denies a request that has come so far. -/
def RedisDenied (endpoint : RlEndpoint) : Prop :=
  limitVerdict h x g endpoint (chargedTenant rq.ctx endpoint) = .allowed ∧ rq.body ≠ [] ∧
    routerOverloaded h x g = false ∧ redisDenies h x g = true

/-- The span of the request is ended once. -/
def EndsSpan : Prop :=
  match routeOf rq.method rq.path with
  | .registry rest => (47 : UInt8) ∈ rest
  | .message messageId =>
      passesAs h x g .messages messageId rq.ctx ∧ (rq.method = ascii "PUT" ∨ messageId.length < 220)
  | .stream => (queryGetParam rq.path (ascii "tenant_id") 64).getD [] ≠ []
  | .decide endpoint =>
      (g.authRequired && !rq.hasAuthHeader) = false ∧ rq.hasTenantHeader = true ∧
        ¬ RedisDenied h x g rq endpoint
  | .policies rest => namesPolicy rest = true
  | _ => True

end Routes

/-- What an operation does under a condition: the right thing if it holds, a wrong one if not. -/
def GoesWith (ends : Prop) (ops : List SpanOp) : Prop :=
  (ends → ops ∈ properWays) ∧ (¬ ends → ops ∈ brokenWays)

theorem goesWith_closing (ends : Prop) [Decidable ends] : GoesWith ends (closing ends) := by
  refine ⟨fun hends => ?_, fun hends => ?_⟩
  · rw [closing_of hends]
    exact ended_mem_properWays
  · rw [closing_of_not hends]
    exact left_mem_brokenWays

/-- The way of a route that ends its span in any case. -/
theorem goesWith_true : GoesWith True [.stop .http] :=
  ⟨fun _ => ended_mem_properWays, fun hfalse => absurd trivial hfalse⟩

section Serve

variable {h : Host} {x : Exchange} {g : Gateway} {rq : HttpRequest}

/-- A subscription without a tenant leaves its span open. -/
theorem spanOps_serveStream (w : World) :
    spanOps (serveStream x rq w).effects =
      spanOps w.effects ++ closing ((queryGetParam rq.path (ascii "tenant_id") 64).getD [] ≠ []) := by
  unfold serveStream
  cases hquery : queryGetParam rq.path (ascii "tenant_id") 64 with
  | none =>
    rw [closing_of_not (by simp)]
    exact (keeps_refused ..).leaves.spanOps_eq
  | some tenantId =>
    cases tenantId with
    | nil =>
      rw [closing_of_not (by simp)]
      exact (keeps_refused ..).leaves.spanOps_eq
    | cons b rest =>
      rw [closing_of (by simp)]
      dsimp only
      rcases sseRegisterClient_spec x (b :: rest) w with ⟨i, -, hregister⟩ | hregister
      · rw [hregister]
        exact (congrArg spanOps (List.append_assoc ..)).trans (spanOps_append ..)
      · rw [hregister]
        exact (congrArg spanOps ((List.append_assoc ..).trans (List.append_assoc ..))).trans
          (spanOps_append ..)

/-- The spans of a decision that is forwarded. -/
theorem ForwardEnds.spanOps {body : List UInt8} {ctx : RequestContext} {rest : List Effect}
    (hends : ForwardEnds h x body ctx rest) : spanOps rest = [] ∨ spanOps rest = [.start .nats, .stop .nats] := by
  cases hends with
  | invalid | unbuildable => exact .inl rfl
  | unavailable | answered => exact .inr rfl

/-- The spans of an admitted decision. Its caller ends the span once more after a denial. -/
theorem DecideEnds.spanOps {endpoint : RlEndpoint} {rest : List Effect}
    (hends : DecideEnds h x rq.body rq.ctx (rateLimitInitIfNeeded h x g) rest)
    (hverdict : limitVerdict h x g endpoint (chargedTenant rq.ctx endpoint) = .allowed) :
    GoesWith (¬ RedisDenied h x g rq endpoint) (spanOps rest ++ [.stop .http]) := by
  have hpassed : ∀ {ops}, ¬ RedisDenied h x g rq endpoint → ops ∈ properWays →
      GoesWith (¬ RedisDenied h x g rq endpoint) ops :=
    fun hdenied hways => ⟨fun _ => hways, fun hbroken => absurd hdenied hbroken⟩
  cases hends with
  | empty hbody => exact hpassed (fun hdenied => hdenied.2.1 hbody) ended_mem_properWays
  | overloaded hbody hactive hstatus =>
    refine hpassed (fun hdenied => ?_) ended_mem_properWays
    have hidle := hdenied.2.2.1
    rw [routerOverloaded, hactive] at hidle
    cases hidle
  | denied hbody hactive hdeny =>
    refine ⟨fun hok => absurd ⟨hverdict, hbody, ?_, ?_⟩ hok, fun _ => twice_mem_brokenWays⟩
    · rw [routerOverloaded, beq_eq_false_iff_ne]
      exact hactive
    · rw [redisDenies, hdeny]
      rfl
  | @forwarded rest' hbody hactive hdeny event hends =>
    have htracking : CGateway.spanOps (tracking rq.ctx event) = [] := by
      unfold tracking
      split <;> rfl
    rw [spanOps_append, htracking, List.nil_append]
    refine hpassed (fun hdenied => ?_) ?_
    · have hdenies := hdenied.2.2.2
      rw [redisDenies, beq_iff_eq] at hdenies
      exact hdeny hdenies
    · rcases hends.spanOps with hnone | hcalled
      · rw [hnone]
        exact ended_mem_properWays
      · rw [hcalled]
        exact called_mem_properWays

/-- **The decide route.** The span is left open by the two checks in front of the limit, and ended twice
where the Redis limiter denies the request. -/
theorem BranchEnds.spanOps {endpoint : RlEndpoint} {rest : List Effect}
    (hends : BranchEnds h x rq endpoint g rest) :
    GoesWith ((g.authRequired && !rq.hasAuthHeader) = false ∧ rq.hasTenantHeader = true ∧
      ¬ RedisDenied h x g rq endpoint) (spanOps rest) := by
  have hcheck : ∀ commands, CGateway.spanOps (limitCheck endpoint rq.ctx commands) = [] :=
    fun commands => filterMap_redis Effect.spanOp? (fun _ => rfl) commands
  cases hends with
  | unauthorized hauth =>
    refine ⟨fun hok => ?_, fun _ => left_mem_brokenWays⟩
    exact absurd (hauth.symm.trans hok.1) nofun
  | noTenant hauth htenant =>
    refine ⟨fun hok => ?_, fun _ => left_mem_brokenWays⟩
    exact absurd (htenant.symm.trans hok.2.1) nofun
  | limited hauth htenant hverdict hlimited commands =>
    rw [spanOps_append, hcheck]
    refine ⟨fun _ => ended_mem_properWays, fun hbroken => absurd ⟨hauth, htenant, ?_⟩ hbroken⟩
    rintro ⟨hallowed, -⟩
    rw [hverdict] at hallowed
    rcases hlimited with hexceeded | ⟨herror, -⟩
    · exact absurd (hexceeded.symm.trans hallowed) nofun
    · exact absurd (herror.symm.trans hallowed) nofun
  | limiterError hauth htenant hverdict hroute commands =>
    rw [spanOps_append, hcheck]
    refine ⟨fun _ => ended_mem_properWays, fun hbroken => absurd ⟨hauth, htenant, ?_⟩ hbroken⟩
    rintro ⟨hallowed, -⟩
    exact absurd (hverdict.symm.trans hallowed) nofun
  | @admitted hauth htenant hverdict commands rest hends =>
    have hbehind : CGateway.spanOps (limitCheck endpoint rq.ctx commands ++ .enterDecide :: rest ++
        [.spanEnd .http, .close x.fd]) = CGateway.spanOps rest ++ [.stop .http] := by
      rw [spanOps_append, spanOps_append, hcheck]
      rfl
    obtain ⟨hproper, hbroken⟩ := hends.spanOps hverdict
    rw [hbehind]
    exact ⟨fun hok => hproper hok.2.2, fun hno => hbroken fun hdenied => hno ⟨hauth, htenant, hdenied⟩⟩

/-- **What a connection does to its spans.** -/
theorem spanOps_httpStep (hparse : parseRequest (firstRead x) = some rq) :
    ∃ ops, spanOps (httpStep h g x).2 = .start .http :: ops ∧ GoesWith (EndsSpan h x g rq) ops := by
  rw [httpStep_of_parse hparse]
  unfold serve EndsSpan
  dsimp only
  generalize hw : (⟨countRequest g, [.spanStart .http]⟩ : World) = w
  have hstart : spanOps w.effects = [.start .http] := by
    rw [← hw]
    rfl
  have hgateway : w.gateway = countRequest g := by rw [← hw]
  have hended : ∀ {w' : World}, Keeps [.stop .http] w w' →
      ∃ ops, spanOps w'.effects = .start .http :: ops ∧ GoesWith True ops := by
    intro w' hkeeps
    refine ⟨[.stop .http], ?_, goesWith_true⟩
    rw [hkeeps.leaves.spanOps_eq, hstart]
    rfl
  cases hroute : routeOf rq.method rq.path with
  | registry rest =>
    refine ⟨closing ((47 : UInt8) ∈ rest), ?_, goesWith_closing _⟩
    rw [(leaves_serveRegistry rest w).spanOps_eq, hstart]
    rfl
  | getDecision messageId =>
    refine ⟨[.stop .http], ?_, goesWith_true⟩
    rw [(tells_serveGetDecision messageId w).spanOps_eq, hstart]
    rfl
  | message messageId =>
    have hspans : spanOps (serveMessage h x rq messageId w).effects = _ := (tells_serveMessage messageId w).spanOps_eq
    simp only [hgateway, passesAs_countRequest, hstart] at hspans
    exact ⟨_, hspans, goesWith_closing _⟩
  | stream =>
    refine ⟨_, ?_, goesWith_closing _⟩
    rw [spanOps_serveStream, hstart]
    rfl
  | decide endpoint =>
    obtain ⟨rest, heffects, hends⟩ := serveDecide_branchEnds h x rq endpoint w
    rw [hgateway] at hends
    refine ⟨spanOps rest, ?_, hends.of_countRequest.spanOps⟩
    rw [heffects, spanOps_append, hstart]
    rfl
  | policies rest =>
    refine ⟨_, ?_, goesWith_closing _⟩
    rw [(keeps_servePolicies rest w).leaves.spanOps_eq, hstart]
    rfl
  | health => exact hended (keeps_handleHealth w).finish_sampleRequest
  | metricsJson => exact hended (keeps_handleMetricsJson w).finish_sampleRequest
  | metrics => exact hended (keeps_handleMetricsRequest w).finish_sampleRequest
  | extensionsHealth => exact hended (keeps_handleQuery w _).finish_sampleRequest
  | circuitBreakers => exact hended (keeps_handleQuery w _).finish_sampleRequest
  | dryRun => exact hended (keeps_handleDryRunPipeline w _).finish_sampleRequest
  | unknown => exact hended (keeps_sendErrorResponse w ..).finish_sampleRequest

end Serve

/-- **The life of a span.** A connection ends every span that it started, once, and does not use it
afterwards, if and only if its request, when it can be read, is none of these: one for a block without a
version segment; a message change without an id or a tenant, beyond the limit, or the deletion of a message
with an id of 220 bytes or more; a subscription without a tenant; a decision without the header that is
required of it, or denied by the Redis limiter; a path under policies that names no tenant and policy. -/
theorem spans_ended_iff (h : Host) (g : Gateway) (x : Exchange) :
    SpansEnded (spanOps (httpStep h g x).2) ↔
      ∀ rq, parseRequest (firstRead x) = some rq → EndsSpan h x g rq := by
  cases hparse : parseRequest (firstRead x) with
  | none =>
      have hnone : spanOps (httpStep h g x).2 = [] := by
        unfold httpStep handleClient serveBytes
        rw [hparse]
        split <;> rfl
      rw [hnone]
      exact ⟨fun _ => nofun, fun _ => ⟨fun _ => Nat.zero_le _, fun _ => rfl, .nil⟩⟩
  | some rq =>
      obtain ⟨ops, hops, hproper, hbroken⟩ := spanOps_httpStep (h := h) (g := g) hparse
      rw [hops]
      constructor
      · intro hended rq' hrq'
        obtain rfl := Option.some.inj hrq'
        by_contra hends
        exact not_spansEnded_of_broken (hbroken hends) hended
      · intro hends
        exact spansEnded_of_proper (hproper (hends rq rfl))

/-- The Redis limiter fails closed after one error. -/
def failClosedHost : Host :=
  sampleHost [("C_GATEWAY_REDIS_RATE_LIMIT_ENABLED", "true"),
    ("C_GATEWAY_REDIS_RATE_LIMIT_CB_MODE", "fail_closed"),
    ("C_GATEWAY_REDIS_RATE_LIMIT_CB_ERROR_THRESHOLD", "1")]

/-- **Two spans that go wrong.** The second of two decisions is denied by the Redis limiter, and ends its span
twice. A message change without a tenant leaves its span open. -/
theorem spans_wrongly_ended :
    let decision := Exchange.delivering
      (requestText "POST /api/v1/routes/decide HTTP/1.1" "X-Tenant-ID: acme\r\n" sampleBody)
      (some sampleReply)
    let change := Exchange.delivering (requestText "PUT /api/v1/messages/m1 HTTP/1.1" "" sampleBody) none
    let first := recordOf (httpStep failClosedHost) (Gateway.atStart 900) decision
    let second := recordOf (httpStep failClosedHost) first.after decision
    let third := recordOf (httpStep failClosedHost) (Gateway.atStart 900) change
    spanOps first.output = [.start .http, .start .nats, .stop .nats, .stop .http] ∧
      spanOps second.output = [.start .http, .stop .http, .stop .http] ∧
      spanOps third.output = [.start .http] := by
  decide +kernel

end CGateway
