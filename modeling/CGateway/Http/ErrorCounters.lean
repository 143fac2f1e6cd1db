import CGateway.Http.RouterErrors
import CGateway.Http.Stores

/-! # The error counters

`metric_requests_errors_total` and its two classes are kept by the functions that send an error, each on its own. Four
kinds of error responses go past the classes: a refusal of the request limiter, which moves the total only, a denial of
the Redis limiter, an error of the Router that is passed on, and a failed export of the metrics.

* `bypasses` — an error response that is not counted in its class;
* `Booked` — the counters around some responses;
* `Quiet`, `Reckoned` — a piece of the code sends nothing, or keeps the books of what it sends;
* `reckoned_serve`, `booked_httpStep` — so does every request;
* `errorCounters_iff` — the counters of a run are right just when none of its responses goes past them. -/

namespace CGateway

open Bytes CString Json Machine

/-! ### Counters and classes -/

/-- `metric_requests_errors_total`, `metric_requests_errors_4xx` and `metric_requests_errors_5xx`. -/
structure ErrorCounts where
  total : ℕ
  fourxx : ℕ
  fivexx : ℕ
  deriving DecidableEq

/-- The error counters of a gateway. -/
def Gateway.errorCounts (g : Gateway) : ErrorCounts :=
  ⟨g.metricRequestsErrorsTotal, g.metricRequestsErrors4xx, g.metricRequestsErrors5xx⟩

/-- The status is of the class 4xx. -/
def StatusLine.is4xx (s : StatusLine) : Bool := s.code / 100 = 4

/-- The status is of the class 5xx. -/
def StatusLine.is5xx (s : StatusLine) : Bool := s.code / 100 = 5

/-- The status is an error. -/
def StatusLine.isError (s : StatusLine) : Bool := s.is4xx || s.is5xx

/-- The number of 4xx responses. -/
def sent4xx (sent : List Response) : ℕ := sent.countP (·.status.is4xx)

/-- The number of 5xx responses. -/
def sent5xx (sent : List Response) : ℕ := sent.countP (·.status.is5xx)

/-- How the body of `send_rate_limit_error` begins. -/
def limitErrorHead : List UInt8 :=
  errorHead (ascii "rate_limit_exceeded") ++ ascii "\"message\":\"Rate limit exceeded for endpoint "

/-- How the body for a denial of the Redis limiter begins. -/
def denialHead : List UInt8 :=
  errorHead (ascii "rate_limit_exceeded") ++ ascii "\"message\":\"Too many requests\","

/-- The response to `GET /metrics` when the export fails. -/
def metricsFailure : Response where
  status := .internalServerError
  headers := ascii "Content-Type: text/plain\r\nContent-Length: 35\r\n"
  body := ascii "Internal Server Error: metrics export failed\n"

/-- A response that is written without a look at the class counters. -/
def writtenPast (r : Response) : Bool :=
  r.status == .tooManyRequests && (limitErrorHead.isPrefixOf r.body || denialHead.isPrefixOf r.body) ||
    r == metricsFailure

/-- Among these effects, the response is an error that is not counted in its class: it is written past the counters, or
passed on from the Router. -/
def bypasses (x : Exchange) (effects : List Effect) (r : Response) : Bool :=
  r.status.isError && (routerReplies x effects != [] || writtenPast r)

/-- Some response among these effects is not counted. -/
def lapses (x : Exchange) (effects : List Effect) : Bool := (responses effects).any (bypasses x effects)

/-- The counters before and behind some responses. A lapse leaves one of them out of the classes. -/
structure Booked (c c' : ErrorCounts) (sent : List Response) (lapse : Bool) : Prop where
  fourxx : c'.fourxx ≤ c.fourxx + sent4xx sent
  fivexx : c'.fivexx ≤ c.fivexx + sent5xx sent
  classes : c'.fourxx + c'.fivexx + lapse.toNat = c.fourxx + c.fivexx + sent4xx sent + sent5xx sent
  total : lapse = false → c'.total + c.fourxx + c.fivexx = c.total + c'.fourxx + c'.fivexx

section Booked

variable {c : ErrorCounts} {r : Response}

theorem Booked.nothing (c : ErrorCounts) : Booked c c [] false := by
  constructor <;> simp [sent4xx, sent5xx]

/-- A status has one class. -/
theorem StatusLine.classes (s : StatusLine) : s.is4xx.toNat + s.is5xx.toNat = s.isError.toNat := by
  cases s <;> rfl

theorem isError_ok : StatusLine.ok.isError = false := rfl

theorem sent_singleton (r : Response) : sent4xx [r] = r.status.is4xx.toNat ∧ sent5xx [r] = r.status.is5xx.toNat := by
  constructor
  · cases h : r.status.is4xx <;> simp [sent4xx, h]
  · cases h : r.status.is5xx <;> simp [sent5xx, h]

/-- A success is not counted. -/
theorem Booked.success (hstatus : r.status.isError = false) : Booked c c [r] false := by
  obtain ⟨h4, h5⟩ := sent_singleton r
  have hclasses := r.status.classes
  rw [hstatus] at hclasses
  constructor <;> simp_all

/-- An error that only the total may count. -/
theorem Booked.lapse {c' : ErrorCounts} (hstatus : r.status.isError = true) (h4xx : c'.fourxx = c.fourxx)
    (h5xx : c'.fivexx = c.fivexx) : Booked c c' [r] true := by
  obtain ⟨h4, h5⟩ := sent_singleton r
  have hclasses := r.status.classes
  rw [hstatus] at hclasses
  refine ⟨by omega, by omega, ?_, nofun⟩
  rw [h4, h5, h4xx, h5xx, ← hclasses]
  omega

/-- An error that is counted. -/
theorem Booked.counted {g : Gateway} (hstatus : r.status.isError = true) :
    Booked g.errorCounts (countError r.status g).errorCounts [r] false := by
  obtain ⟨h4, h5⟩ := sent_singleton r
  have hcount4 : (countError r.status g).errorCounts.fourxx = g.errorCounts.fourxx + r.status.is4xx.toNat := by
    cases hs : r.status <;> rfl
  have hcount5 : (countError r.status g).errorCounts.fivexx = g.errorCounts.fivexx + r.status.is5xx.toNat := by
    cases hs : r.status <;> rfl
  have htotal : (countError r.status g).errorCounts.total = g.errorCounts.total + 1 := rfl
  have hclasses := r.status.classes
  rw [hstatus, Bool.toNat_true] at hclasses
  refine ⟨by omega, by omega, ?_, fun _ => by omega⟩
  rw [h4, h5, hcount4, hcount5, Bool.toNat_false]
  omega

end Booked

/-! ### Pieces of the code -/

/-- Nothing is sent, no reply of the Router is obtained and no error is counted. -/
structure Quiet (x : Exchange) (w w' : World) : Prop where
  counts : w'.gateway.errorCounts = w.gateway.errorCounts
  effects : ∃ rest, w'.effects = w.effects ++ rest ∧ responses rest = [] ∧ routerReplies x rest = []

/-- The books are kept of what is sent. -/
def Reckoned (x : Exchange) (w w' : World) : Prop :=
  ∃ rest, w'.effects = w.effects ++ rest ∧
    Booked w.gateway.errorCounts w'.gateway.errorCounts (responses rest) (lapses x rest)

section Pieces

variable {x : Exchange} {w w' w'' : World}

theorem Quiet.trans (h : Quiet x w w') (h' : Quiet x w' w'') : Quiet x w w'' := by
  obtain ⟨rest, hrest, hresponses, hreplies⟩ := h.effects
  obtain ⟨rest', hrest', hresponses', hreplies'⟩ := h'.effects
  refine ⟨h'.counts.trans h.counts, rest ++ rest', ?_, ?_, ?_⟩
  · rw [hrest', hrest, List.append_assoc]
  · rw [responses_append, hresponses, hresponses', List.append_nil]
  · rw [routerReplies_append, hreplies, hreplies', List.append_nil]

/-- Other variables are written. -/
theorem Quiet.of_silent (hcounts : w'.gateway.errorCounts = w.gateway.errorCounts) (heffects : w'.effects = w.effects) :
    Quiet x w w' :=
  ⟨hcounts, [], heffects.trans (List.append_nil _).symm, rfl, rfl⟩

/-- An effect that is neither a response nor a question that the Router answers. -/
theorem Quiet.emit {e : Effect} (hresponse : e.response? = none) (hreply : e.reply? x = none) (w : World) :
    Quiet x w (w.emit e) :=
  ⟨rfl, [e], rfl, List.filterMap_cons_none hresponse, List.filterMap_cons_none hreply⟩

/-- What is quiet changes neither what is sent nor what goes past the counters. -/
theorem lapses_append_of_quiet {before behind : List Effect} (rest : List Effect) (hbefore : responses before = [])
    (hbefore' : routerReplies x before = []) (hbehind : responses behind = [])
    (hbehind' : routerReplies x behind = []) :
    responses (before ++ rest ++ behind) = responses rest ∧ lapses x (before ++ rest ++ behind) = lapses x rest := by
  have hresponses : responses (before ++ rest ++ behind) = responses rest := by
    rw [responses_append, responses_append, hbefore, hbehind, List.nil_append, List.append_nil]
  have hreplies : routerReplies x (before ++ rest ++ behind) = routerReplies x rest := by
    rw [routerReplies_append, routerReplies_append, hbefore', hbehind', List.nil_append, List.append_nil]
  have hbypasses : bypasses x (before ++ rest ++ behind) = bypasses x rest := by
    funext r
    rw [bypasses, bypasses, hreplies]
  exact ⟨hresponses, by rw [lapses, lapses, hresponses, hbypasses]⟩

theorem Reckoned.after (h : Quiet x w w') (h' : Reckoned x w' w'') : Reckoned x w w'' := by
  obtain ⟨before, hbefore, hnone, hnone'⟩ := h.effects
  obtain ⟨rest, hrest, hbooked⟩ := h'
  have hnil : responses [] = [] ∧ routerReplies x [] = [] := ⟨rfl, rfl⟩
  obtain ⟨hresponses, hlapses⟩ := lapses_append_of_quiet rest hnone hnone' hnil.1 hnil.2
  rw [List.append_nil] at hresponses hlapses
  refine ⟨before ++ rest, by rw [hrest, hbefore, List.append_assoc], ?_⟩
  rw [hresponses, hlapses, ← h.counts]
  exact hbooked

theorem Reckoned.before (h : Reckoned x w w') (h' : Quiet x w' w'') : Reckoned x w w'' := by
  obtain ⟨rest, hrest, hbooked⟩ := h
  obtain ⟨behind, hbehind, hnone, hnone'⟩ := h'.effects
  have hnil : responses [] = [] ∧ routerReplies x [] = [] := ⟨rfl, rfl⟩
  obtain ⟨hresponses, hlapses⟩ := lapses_append_of_quiet rest hnil.1 hnil.2 hnone hnone'
  rw [List.nil_append] at hresponses hlapses
  refine ⟨rest ++ behind, by rw [hbehind, hrest, List.append_assoc], ?_⟩
  rw [hresponses, hlapses, h'.counts]
  exact hbooked

theorem Quiet.reckoned (h : Quiet x w w') : Reckoned x w w' := by
  obtain ⟨rest, hrest, hnone, -⟩ := h.effects
  refine ⟨rest, hrest, ?_⟩
  rw [lapses, hnone, h.counts]
  exact .nothing _

end Pieces

/-! ### Quiet pieces -/

section QuietPieces

variable {h : Host} {x : Exchange} (w : World)

theorem quiet_closeClient : Quiet x w (closeClient x w) := .emit rfl rfl w

theorem quiet_sampleLatency : Quiet x w (sampleLatency x w) := .of_silent rfl rfl

theorem quiet_sampleRequest : Quiet x w (sampleRequest x w) := .of_silent rfl rfl

theorem quiet_finish : Quiet x w (finish x w) :=
  Quiet.trans (.emit rfl rfl w : Quiet x w (endSpan w)) (quiet_closeClient _)

theorem quiet_sseBroadcastJson {tenantId : List UInt8} (htenant : tenantId ≠ []) (event json : List UInt8) :
    Quiet x w (sseBroadcastJson x tenantId event json w) := by
  obtain ⟨rest, hrest, hnone⟩ := (sseBroadcastJson_onlyBroadcast x htenant event json w).silent (x := x)
  exact ⟨frame_sseBroadcastJson (fun _ _ _ => rfl) w tenantId event json, rest, hrest, hnone⟩

theorem quiet_sseRegisterClient (tenantId : List UInt8) : Quiet x w (sseRegisterClient x tenantId w).2 := by
  rcases sseRegisterClient_spec x tenantId w with ⟨i, -, hspec⟩ | hspec
  · rw [hspec]
    exact ⟨rfl, _, rfl, rfl, rfl⟩
  · rw [hspec]
    exact ⟨rfl, _, rfl, rfl, rfl⟩

/-- The limit check counts elsewhere. -/
theorem quiet_rateLimitCheck (endpoint : RlEndpoint) (tenantId : Option (List UInt8)) :
    Quiet x w (rateLimitCheck h x endpoint tenantId w).2 := by
  obtain ⟨g', commands, hcheck⟩ := rateLimitCheck_spec h x w endpoint tenantId
  have hcounts : (rateLimitInitIfNeeded h x w.gateway).errorCounts = w.gateway.errorCounts := by
    unfold rateLimitInitIfNeeded
    split <;> rfl
  rw [hcheck]
  refine ⟨hcounts, _, rfl, ?_, ?_⟩
  · exact filterMap_redis Effect.response? (fun _ => rfl) commands
  · exact filterMap_redis (Effect.reply? x) (fun _ => rfl) commands

/-- The world behind a limit check. -/
theorem quiet_of_check {endpoint : RlEndpoint} {tenantId : Option (List UInt8)} {verdict : RlVerdict} {w w' : World}
    (hcheck : rateLimitCheck h x endpoint tenantId w = (verdict, w')) : Quiet x w w' := by
  have hquiet := quiet_rateLimitCheck (h := h) (x := x) w endpoint tenantId
  rwa [hcheck] at hquiet

end QuietPieces

/-! ### Answers -/

section Answers

variable {h : Host} {x : Exchange} {ctx : RequestContext} {w : World}

/-- The bodies of the errors of the gateway are objects. -/
theorem head?_boundedErrorBody (code message : List UInt8) (ctx : RequestContext) :
    (boundedErrorBody code message ctx).head? = some 123 := by
  unfold boundedErrorBody
  dsimp only
  split <;> rfl

variable {status : StatusLine} {r : Response} {code message : String}

/-- An error of the gateway that is not a 429 is not written past the counters. -/
theorem writtenPast_of_object {body : List UInt8} (hstatus : status ≠ .tooManyRequests)
    (hbody : body.head? = some 123) (headers : List UInt8) : writtenPast ⟨status, headers, body⟩ = false := by
  have hmetrics : (⟨status, headers, body⟩ : Response) ≠ metricsFailure := by
    intro heq
    have hsame : body = metricsFailure.body := congrArg Response.body heq
    rw [hsame] at hbody
    cases hbody
  rw [writtenPast, beq_eq_false_iff_ne.mpr hmetrics, beq_eq_false_iff_ne.mpr hstatus]
  rfl

/-- One response that is counted. -/
theorem reckoned_counted {w' : World} (hstatus : r.status.isError = true) (hpast : writtenPast r = false)
    (heffects : w'.effects = w.effects ++ [.respond r]) (hgateway : w'.gateway = countError r.status w.gateway) :
    Reckoned x w w' := by
  refine ⟨_, heffects, ?_⟩
  have hlapse : lapses x [.respond r] = false := by
    show (bypasses x [.respond r] r || false) = false
    rw [bypasses, hpast, hstatus]
    rfl
  rw [hlapse, hgateway]
  exact .counted hstatus

/-- An error of the gateway is counted. -/
theorem reckoned_sendErrorResponse (hstatus : status.isError = true ∧ status ≠ .tooManyRequests) (w : World) :
    Reckoned x w (sendErrorResponse status code message ctx w) := by
  have hpast : writtenPast (errorResponse status code message ctx) = false :=
    writtenPast_of_object hstatus.2 (head?_boundedErrorBody ..) _
  exact reckoned_counted hstatus.1 hpast rfl rfl

theorem reckoned_retryAfter (code message : String) (seconds : ℕ) (w : World) :
    Reckoned x w (sendErrorResponseWithRetryAfter .serviceUnavailable code message seconds ctx w) := by
  have hbody := head?_boundedErrorBody (ascii code) (ascii message) ctx
  exact reckoned_counted (show StatusLine.serviceUnavailable.isError = true by decide)
    (writtenPast_of_object (by decide) hbody _) rfl rfl

/-- A success is no error. -/
theorem reckoned_success (hstatus : r.status.isError = false) (w : World) : Reckoned x w (w.emit (.respond r)) := by
  refine ⟨_, rfl, ?_⟩
  have hlapse : lapses x [.respond r] = false := by
    show (bypasses x [.respond r] r || false) = false
    rw [bypasses, hstatus]
    rfl
  rw [hlapse]
  exact .success hstatus

/-- An error that is written past the class counters. -/
theorem reckoned_past {w' : World} (hstatus : r.status.isError = true) (hpast : writtenPast r = true)
    (heffects : w'.effects = w.effects ++ [.respond r])
    (hfourxx : w'.gateway.errorCounts.fourxx = w.gateway.errorCounts.fourxx)
    (hfivexx : w'.gateway.errorCounts.fivexx = w.gateway.errorCounts.fivexx) : Reckoned x w w' := by
  refine ⟨_, heffects, ?_⟩
  have hlapse : lapses x [.respond r] = true := by
    show (bypasses x [.respond r] r || false) = true
    rw [bypasses, hpast, hstatus, Bool.or_true]
    rfl
  rw [hlapse]
  exact .lapse hstatus hfourxx hfivexx

/-- A reply of the Router is passed on, with whatever status. -/
theorem reckoned_passedOn {calls : List Effect} (hnone : responses calls = []) (hreplies : routerReplies x calls ≠ [])
    (status : StatusLine) (body : List UInt8) (w : World) :
    Reckoned x w (sendResponse status body ⟨w.gateway, w.effects ++ calls⟩) := by
  generalize hr : (⟨status, responseHeaders "application/json" body.length, body⟩ : Response) = r
  have hsent : (sendResponse status body ⟨w.gateway, w.effects ++ calls⟩).effects =
      w.effects ++ (calls ++ [.respond r]) := by
    rw [sendResponse, hr, World.emit_effects, List.append_assoc]
  have hresponses : responses (calls ++ [.respond r]) = [r] := by
    rw [responses_append, hnone]
    rfl
  have hasked : (routerReplies x (calls ++ [.respond r]) != []) = true := by
    rw [bne_iff_ne, routerReplies_append]
    exact fun hnil => hreplies (List.append_eq_nil_iff.mp hnil).1
  have hlapse : lapses x (calls ++ [.respond r]) = r.status.isError := by
    rw [lapses, hresponses, List.any_cons, List.any_nil, Bool.or_false, bypasses, hasked]
    exact Bool.and_true _
  refine ⟨_, hsent, ?_⟩
  rw [hresponses, hlapse]
  cases hstatus : r.status.isError with
  | true => exact .lapse hstatus rfl rfl
  | false => exact .success hstatus

/-- The answer to a query that the Router answered. -/
theorem reckoned_natsQuery {query : RouterQuery} {reply : List UInt8} (hreply : x.natsQuery query = some reply)
    (status : StatusLine) (body : List UInt8) (w : World) :
    Reckoned x w (sendResponse status body (w.emit (.natsQuery query))) := by
  have hasked : Effect.reply? x (.natsQuery query) = some reply := hreply
  have hreplies : routerReplies x [.natsQuery query] ≠ [] := by
    rw [routerReplies, List.filterMap_cons_some hasked]
    exact List.cons_ne_nil reply _
  exact reckoned_passedOn rfl hreplies status body w

/-- The answer to a query that the Router did not answer. -/
theorem reckoned_natsQuery_none {query : RouterQuery} (hnone : x.natsQuery query = none) (w : World) :
    Reckoned x w (sendErrorResponse .serviceUnavailable code message ctx (w.emit (.natsQuery query))) := by
  have hreply : Effect.reply? x (.natsQuery query) = none := hnone
  have hquery : Quiet x w (w.emit (.natsQuery query)) := .emit rfl hreply w
  exact .after hquery (reckoned_sendErrorResponse (by decide) _)

/-- A refusal of the request limiter moves the total, or the fallback counts it. -/
theorem reckoned_sendRateLimitError (endpoint : RlEndpoint) (w : World) :
    Reckoned x w (sendRateLimitError h x endpoint ctx w) := by
  have hstatus := status_rateLimitResponse h x endpoint ctx
  unfold sendRateLimitError
  dsimp only
  split
  · have hpast : writtenPast (rateLimitResponse h x endpoint ctx) = true := by
      have hhead : limitErrorHead.isPrefixOf (rateLimitResponse h x endpoint ctx).body = true := by
        rw [body_rateLimitResponse, List.isPrefixOf_iff_prefix, rateLimitBody]
        simp only [List.append_assoc]
        rw [← List.append_assoc]
        exact List.prefix_append ..
      rw [writtenPast, hstatus, hhead]
      rfl
    exact reckoned_past (by rw [hstatus]; rfl) hpast rfl rfl rfl
  · have hpast :
        writtenPast (errorResponse .tooManyRequests "rate_limit_exceeded" "Rate limit exceeded" ctx) = false := by
      unfold writtenPast errorResponse boundedErrorBody
      dsimp only
      split <;> rfl
    exact reckoned_counted (show StatusLine.tooManyRequests.isError = true by decide) hpast rfl rfl

/-! ### Handlers -/

theorem reckoned_handleMetricsRequest (w : World) : Reckoned x w (handleMetricsRequest x w) := by
  unfold handleMetricsRequest
  split
  · have hpast : writtenPast metricsFailure = true := by rw [writtenPast, beq_self_eq_true, Bool.or_true]
    exact reckoned_past (show metricsFailure.status.isError = true by decide) hpast rfl rfl rfl
  · exact reckoned_success isError_ok w

theorem reckoned_handleQuery (query : RouterQuery) (w : World) : Reckoned x w (handleQuery x query ctx w) := by
  unfold handleQuery
  dsimp only
  split
  · next hnone => exact reckoned_natsQuery_none hnone w
  · next reply hreply => exact reckoned_natsQuery hreply ..

theorem reckoned_handleMappedQuery (query : RouterQuery) (w : World) :
    Reckoned x w (handleMappedQuery h x query ctx w) := by
  unfold handleMappedQuery
  dsimp only
  split
  · next hnone => exact reckoned_natsQuery_none hnone w
  · next reply hreply => exact reckoned_natsQuery hreply ..

theorem reckoned_handleDryRunPipeline (body : List UInt8) (w : World) :
    Reckoned x w (handleDryRunPipeline h x body ctx w) := by
  unfold handleDryRunPipeline
  split
  · exact reckoned_sendErrorResponse (by decide) w
  · exact reckoned_handleMappedQuery ..

theorem reckoned_handlePipelineComplexity (tenantId policyId : List UInt8) (w : World) :
    Reckoned x w (handlePipelineComplexity h x tenantId policyId ctx w) := by
  unfold handlePipelineComplexity
  split
  · exact reckoned_sendErrorResponse (by decide) w
  · exact reckoned_handleMappedQuery ..

theorem reckoned_handleGetDecision (messageId : List UInt8) (w : World) :
    Reckoned x w (handleGetDecision h x messageId ctx w) := by
  unfold handleGetDecision
  split
  · exact reckoned_sendErrorResponse (by decide) w
  · split
    · exact reckoned_sendErrorResponse (by decide) w
    · next htenant =>
      dsimp only
      split
      · next hnone => exact reckoned_natsQuery_none hnone w
      · next reply hreply =>
          have hpassed := reckoned_natsQuery hreply
            (queryStatusLine (mapRouterErrorStatus h.jsonLoads (respBuf reply))) (respBuf reply) w
          split
          · exact hpassed.before (quiet_sseBroadcastJson _ htenant ..)
          · exact hpassed

/-- What a manifest is refused with. -/
theorem manifestError_status {members : Members} {type version : List UInt8}
    (herror : manifestError members type version = some (status, code, message)) :
    status.isError = true ∧ status ≠ .tooManyRequests := by
  unfold manifestError at herror
  dsimp only at herror
  split_ifs at herror <;> cases herror <;> decide

theorem reckoned_handleRegistryWriteCommon (type version body : List UInt8) (w : World) :
    Reckoned x w (handleRegistryWriteCommon h x type version body w) := by
  unfold handleRegistryWriteCommon
  split
  · exact reckoned_sendErrorResponse (by decide) w
  · split
    · next herror => exact reckoned_sendErrorResponse (manifestError_status herror) w
    · split
      · exact reckoned_sendErrorResponse (by decide) w
      · split
        · exact reckoned_sendErrorResponse (by decide) w
        · next created registry _ =>
            refine .after (.of_silent rfl rfl : Quiet x w (w.update (setRegistry registry))) (reckoned_success ?_ _)
            have hstatus : ∀ created : Bool, (if created then StatusLine.created else .ok).isError = false := by decide
            exact hstatus created

theorem reckoned_handleRegistryDelete (type version : List UInt8) (w : World) :
    Reckoned x w (handleRegistryDelete x type version w) := by
  unfold handleRegistryDelete
  split
  · exact reckoned_sendErrorResponse (by decide) w
  · next registry _ =>
      exact .after (.of_silent rfl rfl : Quiet x w (w.update (setRegistry registry)))
        (reckoned_success isError_ok _)

/-- A denial of the Redis limiter. -/
theorem reckoned_redisDeny (result : RedisLimiterResult) (w : World) :
    Reckoned x w (w.emit (.respond (redisDenyResponse result ctx))) := by
  have hhead : denialHead.isPrefixOf (redisDenyResponse result ctx).body = true := by
    have hcode : (ascii "rate_limit_exceeded").length = 19 := length_ascii_ofList _
    have hmessage : (ascii "\"message\":\"Too many requests\",").length = 30 := length_ascii_ofList _
    have hlength : denialHead.length = 80 := by
      rw [denialHead, List.length_append, length_errorHead, hcode, hmessage]
    rw [redisDenyResponse, isPrefixOf_take, Bool.and_eq_true, hlength]
    refine ⟨by decide, List.isPrefixOf_iff_prefix.mpr ?_⟩
    simp only [List.append_assoc]
    rw [← List.append_assoc]
    exact List.prefix_append ..
  refine reckoned_past (show StatusLine.tooManyRequests.isError = true by decide) ?_ rfl rfl rfl
  rw [writtenPast, hhead, Bool.or_true]
  rfl

theorem reckoned_forwardDecide (body : List UInt8) (w : World) : Reckoned x w (forwardDecide h x body ctx w) := by
  unfold forwardDecide
  split
  · exact reckoned_sendErrorResponse (by decide) w
  · split
    · exact reckoned_sendErrorResponse (by decide) w
    · next route text _ =>
        dsimp only
        have hstart : Quiet x w (w.emit (.spanStart .nats)) := .emit rfl rfl w
        split
        · next hnone =>
            have hcall : Quiet x (w.emit (.spanStart .nats))
                (((w.emit (.spanStart .nats)).emit (.natsDecide route text)).emit (.spanEnd .nats)) :=
              Quiet.trans (.emit rfl (show Effect.reply? x (.natsDecide route text) = none from hnone) _)
                (.emit rfl rfl _)
            exact .after (hstart.trans hcall) (reckoned_sendErrorResponse (by decide) _)
        · next reply hreply =>
            have hasked : Effect.reply? x (.natsDecide route text) = some reply := hreply
            have hreplies : routerReplies x (routerCall route text) ≠ [] := by
              rw [routerReplies, routerCall, List.filterMap_cons_none rfl, List.filterMap_cons_some hasked]
              exact List.cons_ne_nil reply _
            have hworld : ((w.emit (.spanStart .nats)).emit (.natsDecide route text)).emit (.spanEnd .nats) =
                ⟨w.gateway, w.effects ++ routerCall route text⟩ := by
              simp [World.emit, routerCall]
            rw [hworld]
            exact reckoned_passedOn rfl hreplies _ _ w

theorem reckoned_handleDecide (body : List UInt8) (w : World) : Reckoned x w (handleDecide h x body ctx w) := by
  have hlimit : ∀ w, Reckoned x w (limitDecide h x body ctx w) := by
    intro w
    unfold limitDecide
    dsimp only
    have hset : ∀ limiter, Quiet x w (w.update (setRedisLimiter limiter)) := fun _ => .of_silent rfl rfl
    split
    · exact .after (hset _) ((reckoned_redisDeny _ _).before (.emit rfl rfl _))
    · obtain ⟨abuse, event, hspec⟩ := checkAbuse_spec x body ctx (w.update (setRedisLimiter
        (redisRateLimiterCheck x.clock.redisLimiter x.staleResult w.gateway.redisLimiter).2))
      rw [hspec]
      refine .after ?_ (reckoned_forwardDecide body _)
      exact ⟨rfl, _, rfl, responses_tracking ctx event, (tracking_silent x ctx event).1⟩
  have henter : Quiet x w (w.emit .enterDecide) := .emit rfl rfl w
  unfold handleDecide
  dsimp only
  split
  · exact .after henter (reckoned_sendErrorResponse (by decide) _)
  · have hset : ∀ client, Quiet x w ((w.emit .enterDecide).update (setBackpressure client)) :=
      fun client => henter.trans (.of_silent rfl rfl)
    split
    · exact .after (hset _) (reckoned_retryAfter ..)
    · exact .after (hset _) (hlimit _)

end Answers

/-! ### Requests -/

section Requests

variable {h : Host} {x : Exchange} {rq : HttpRequest} {w w' : World}

/-- The common end. -/
theorem Reckoned.finish (hreckoned : Reckoned x w w') : Reckoned x w (finish x w') := hreckoned.before (quiet_finish w')

theorem Reckoned.finish_sampleLatency (hreckoned : Reckoned x w w') :
    Reckoned x w (CGateway.finish x (sampleLatency x w')) :=
  (hreckoned.before (quiet_sampleLatency w')).finish

theorem Reckoned.finish_sampleRequest (hreckoned : Reckoned x w w') :
    Reckoned x w (CGateway.finish x (sampleRequest x w')) :=
  (hreckoned.before (quiet_sampleRequest w')).finish

/-- An error that closes the connection at once. -/
theorem reckoned_refused {status : StatusLine} {code message : String}
    (hstatus : status.isError = true ∧ status ≠ .tooManyRequests) (w : World) :
    Reckoned x w (closeClient x (sendErrorResponse status code message rq.ctx w)) :=
  (reckoned_sendErrorResponse hstatus w).before (quiet_closeClient _)

theorem reckoned_serveRegistry (rest : List UInt8) (w : World) : Reckoned x w (serveRegistry h x rq rest w) := by
  unfold serveRegistry
  dsimp only
  split
  · exact ((reckoned_sendErrorResponse (by decide) w).before (quiet_sampleLatency _)).before
      (quiet_closeClient _)
  · split
    · exact (reckoned_sendErrorResponse (by decide) w).finish_sampleLatency
    · split
      · next w' hcheck =>
          refine .after (quiet_of_check hcheck) (Reckoned.finish_sampleLatency ?_)
          split
          · exact reckoned_handleRegistryDelete ..
          · exact reckoned_handleRegistryWriteCommon ..
      · next w' _ hcheck => exact .after (quiet_of_check hcheck) (reckoned_sendRateLimitError _ w').finish

theorem reckoned_serveGetDecision (messageId : List UInt8) (w : World) :
    Reckoned x w (serveGetDecision h x rq messageId w) := by
  unfold serveGetDecision
  split
  · exact (reckoned_sendErrorResponse (by decide) w).finish
  · split
    · next w' hcheck =>
        have hcounted : Quiet x w' (w'.update countDecideGet) := .of_silent rfl rfl
        exact .after ((quiet_of_check hcheck).trans hcounted)
          (reckoned_handleGetDecision messageId _).finish_sampleLatency
    · next w' _ hcheck => exact .after (quiet_of_check hcheck) (reckoned_sendRateLimitError _ w').finish

theorem reckoned_putMessage (htenant : rq.ctx.tenantId ≠ []) (messageId : List UInt8) (w : World) :
    Reckoned x w (putMessage h x rq messageId w) := by
  unfold putMessage
  split
  · exact (reckoned_sendErrorResponse (by decide) w).finish
  · split
    · exact (reckoned_sendErrorResponse (by decide) w).finish
    · split
      · exact (reckoned_sendErrorResponse (by decide) w).finish
      · refine Reckoned.finish_sampleLatency ?_
        exact Reckoned.before (reckoned_success isError_ok w) (quiet_sseBroadcastJson _ htenant ..)

theorem reckoned_deleteMessage (htenant : rq.ctx.tenantId ≠ []) (messageId : List UInt8) (w : World) :
    Reckoned x w (deleteMessage x rq messageId w) := by
  unfold deleteMessage
  dsimp only
  split
  · exact reckoned_refused (by decide) w
  · have hsent : ∀ body, Reckoned x w (sendResponse .ok body w) := fun body =>
      reckoned_success isError_ok w
    refine Reckoned.finish_sampleLatency ?_
    split
    · exact (hsent _).before (quiet_sseBroadcastJson _ htenant ..)
    · exact hsent _

theorem reckoned_serveMessage (messageId : List UInt8) (w : World) :
    Reckoned x w (serveMessage h x rq messageId w) := by
  unfold serveMessage
  split
  · exact reckoned_refused (by decide) w
  · split
    · exact reckoned_refused (by decide) w
    · next htenant =>
      split
      · next w' hcheck =>
          refine .after (quiet_of_check hcheck) ?_
          split
          · exact reckoned_putMessage htenant messageId w'
          · exact reckoned_deleteMessage htenant messageId w'
      · next w' _ hcheck =>
          exact .after (quiet_of_check hcheck) ((reckoned_sendRateLimitError _ w').before (quiet_closeClient _))

theorem reckoned_serveStream (w : World) : Reckoned x w (serveStream x rq w) := by
  have hregister : ∀ tenant, Quiet x w (sseRegisterClient x tenant w).2 := quiet_sseRegisterClient w
  unfold serveStream
  split
  · exact reckoned_refused (by decide) w
  · exact reckoned_refused (by decide) w
  · next tenant _ _ =>
      have hquiet := hregister tenant
      split
      · next w' heq =>
          rw [heq] at hquiet
          exact ((hquiet.trans (quiet_sampleLatency w')).trans (.emit rfl rfl _)).reckoned
      · next w' heq =>
          rw [heq] at hquiet
          exact hquiet.reckoned.finish_sampleLatency

theorem reckoned_serveDecide (endpoint : RlEndpoint) (w : World) : Reckoned x w (serveDecide h x rq endpoint w) := by
  have hserved : ∀ {w' : World}, Quiet x w w' → Reckoned x w (serveAdmitted h x rq w') := fun hquiet =>
    .after hquiet (reckoned_handleDecide rq.body _).finish_sampleRequest
  unfold serveDecide
  split
  · exact reckoned_refused (by decide) w
  · split
    · exact reckoned_refused (by decide) w
    · split
      · split
        · next w' hcheck =>
            have hcounted : Quiet x w' (w'.update countDecidePost) := .of_silent rfl rfl
            exact hserved ((quiet_of_check hcheck).trans hcounted)
        · next w' hcheck => exact .after (quiet_of_check hcheck) (reckoned_sendRateLimitError _ w').finish
        · next w' hcheck =>
            exact .after (quiet_of_check hcheck) (reckoned_sendErrorResponse (by decide) w').finish
      · split
        · next w' hcheck => exact hserved (quiet_of_check hcheck)
        · next w' _ hcheck => exact .after (quiet_of_check hcheck) (reckoned_sendRateLimitError _ w').finish

theorem reckoned_servePolicies (rest : List UInt8) (w : World) : Reckoned x w (servePolicies h x rq rest w) := by
  unfold servePolicies
  split
  · exact reckoned_refused (by decide) w
  · dsimp only
    split
    · exact (reckoned_handlePipelineComplexity _ _ w).finish_sampleRequest
    · exact reckoned_refused (by decide) w

/-- **Every branch keeps the books of what it sends.** -/
theorem reckoned_serve (w : World) : Reckoned x w (serve h x rq w) := by
  unfold serve
  cases routeOf rq.method rq.path with
  | health => exact (reckoned_success isError_ok w).finish_sampleRequest
  | metricsJson =>
    have hset : Quiet x w (w.update (setStartTime x.clock.answer)) := .of_silent rfl rfl
    exact .after hset (reckoned_success isError_ok _).finish_sampleRequest
  | metrics => exact (reckoned_handleMetricsRequest w).finish_sampleRequest
  | registry rest => exact reckoned_serveRegistry rest w
  | getDecision messageId => exact reckoned_serveGetDecision messageId w
  | message messageId => exact reckoned_serveMessage messageId w
  | stream => exact reckoned_serveStream w
  | decide endpoint => exact reckoned_serveDecide endpoint w
  | extensionsHealth => exact (reckoned_handleQuery .extensionHealth w).finish_sampleRequest
  | circuitBreakers => exact (reckoned_handleQuery .circuitBreakers w).finish_sampleRequest
  | dryRun => exact (reckoned_handleDryRunPipeline rq.body w).finish_sampleRequest
  | policies rest => exact reckoned_servePolicies rest w
  | unknown => exact (reckoned_sendErrorResponse (by decide) w).finish_sampleRequest

/-- **The books of one connection.** -/
theorem booked_httpStep (h : Host) (g : Gateway) (x : Exchange) :
    Booked g.errorCounts (httpStep h g x).1.errorCounts (responses (httpStep h g x).2)
      (lapses x (httpStep h g x).2) := by
  have hreckoned : Reckoned x ⟨g, []⟩ (handleClient h x ⟨g, []⟩) := by
    unfold handleClient
    split
    · exact (quiet_closeClient _).reckoned
    · have hcounted : Quiet x ⟨g, []⟩ (World.update ⟨g, []⟩ countRequest) := .of_silent rfl rfl
      unfold serveBytes
      dsimp only
      split
      · refine .after hcounted (Reckoned.before ?_ (quiet_closeClient _))
        exact (reckoned_sendErrorResponse (by decide) _).before (.of_silent rfl rfl)
      · exact .after (hcounted.trans (.emit rfl rfl _)) (reckoned_serve _)
  obtain ⟨rest, hrest, hbooked⟩ := hreckoned
  rw [List.nil_append] at hrest
  rw [← hrest] at hbooked
  exact hbooked

end Requests

/-! ### Runs -/

/-- The responses of a run. -/
def sentIn (past : List HttpRecord) : List Response := past.flatMap fun r => responses r.output

/-- The number of connections in a run with an error that is not counted in its class. -/
def lapsesIn (past : List HttpRecord) : ℕ := past.countP fun r => lapses r.input r.output

/-- The books of a run: the responses that the classes leave out are the lapses. -/
structure RunBooked (past : List HttpRecord) (g : Gateway) : Prop where
  fourxx : g.metricRequestsErrors4xx ≤ sent4xx (sentIn past)
  fivexx : g.metricRequestsErrors5xx ≤ sent5xx (sentIn past)
  classes : g.metricRequestsErrors4xx + g.metricRequestsErrors5xx + lapsesIn past =
    sent4xx (sentIn past) + sent5xx (sentIn past)
  total : lapsesIn past = 0 →
    g.metricRequestsErrorsTotal = g.metricRequestsErrors4xx + g.metricRequestsErrors5xx

theorem runBooked {h : Host} {start : ℤ} {past : List HttpRecord} {g : Gateway}
    (run : Run (httpStep h) (Gateway.atStart start) past g) : RunBooked past g := by
  refine run.invariant ⟨le_rfl, le_rfl, rfl, fun _ => rfl⟩ fun past g x hbooked => ?_
  obtain ⟨h4, h5, hsum, htotal⟩ := hbooked
  obtain ⟨hstep4, hstep5, hstepsum, hsteptotal⟩ := booked_httpStep h g x
  have hsent4 : sent4xx (sentIn (recordOf (httpStep h) g x :: past)) =
      sent4xx (responses (httpStep h g x).2) + sent4xx (sentIn past) := List.countP_append
  have hsent5 : sent5xx (sentIn (recordOf (httpStep h) g x :: past)) =
      sent5xx (responses (httpStep h g x).2) + sent5xx (sentIn past) := List.countP_append
  have hlapses : lapsesIn (recordOf (httpStep h) g x :: past) =
      lapsesIn past + (lapses x (httpStep h g x).2).toNat := by
    rw [lapsesIn, List.countP_cons]
    cases hlapse : lapses x (httpStep h g x).2 <;> simp [hlapse, lapsesIn]
  simp only [Gateway.errorCounts] at hstep4 hstep5 hstepsum hsteptotal
  refine ⟨by omega, by omega, by omega, fun hnone => ?_⟩
  rw [hlapses] at hnone
  have hthis : lapses x (httpStep h g x).2 = false := by
    cases hlapse : lapses x (httpStep h g x).2 with
    | false => rfl
    | true =>
      rw [hlapse] at hnone
      simp at hnone
  have hbefore := htotal (by omega)
  have hafter := hsteptotal hthis
  omega

/-- **The error counters.** After every sequence of requests, the total is the sum of the classes and each class is the
number of the responses of that class that were sent, if and only if no response of the run was an error that goes past
the class counters. -/
theorem errorCounters_iff {h : Host} {start : ℤ} {past : List HttpRecord} {g : Gateway}
    (run : Run (httpStep h) (Gateway.atStart start) past g) :
    (g.metricRequestsErrorsTotal = g.metricRequestsErrors4xx + g.metricRequestsErrors5xx ∧
      g.metricRequestsErrors4xx = sent4xx (sentIn past) ∧ g.metricRequestsErrors5xx = sent5xx (sentIn past)) ↔
      ∀ record ∈ past, ∀ r ∈ responses record.output, bypasses record.input record.output r = false := by
  obtain ⟨h4, h5, hsum, htotal⟩ := runBooked run
  have hnone : lapsesIn past = 0 ↔
      ∀ record ∈ past, ∀ r ∈ responses record.output, bypasses record.input record.output r = false := by
    simp [lapsesIn, lapses, List.countP_eq_zero]
  rw [← hnone]
  constructor
  · rintro ⟨-, hfour, hfive⟩
    omega
  · intro hlapses
    exact ⟨htotal hlapses, by omega, by omega⟩

/-- A request without a body. -/
def plainRequest (requestLine headers : String) : Exchange :=
  .delivering (requestText requestLine headers []) none

/-- A health check, an unknown route and a decision without a tenant: two errors, both counted. -/
theorem errorCounters_plain :
    let run := exec (httpStep (sampleHost [])) (Gateway.atStart 900)
      [plainRequest "GET /health HTTP/1.1" "", plainRequest "GET /nowhere HTTP/1.1" "",
        plainRequest "POST /api/v1/routes/decide HTTP/1.1" ""]
    run.2.metricRequestsErrorsTotal = run.2.metricRequestsErrors4xx + run.2.metricRequestsErrors5xx ∧
      run.2.metricRequestsErrors4xx = sent4xx (sentIn run.1) ∧ run.2.metricRequestsErrors5xx = sent5xx (sentIn run.1) ∧
      sent4xx (sentIn run.1) = 2 := by
  intro run
  have hrun := run_exec (httpStep (sampleHost [])) (Gateway.atStart 900)
    [plainRequest "GET /health HTTP/1.1" "", plainRequest "GET /nowhere HTTP/1.1" "",
      plainRequest "POST /api/v1/routes/decide HTTP/1.1" ""]
  obtain ⟨htotal, h4, h5⟩ := (errorCounters_iff hrun).mpr (by decide +kernel)
  exact ⟨htotal, h4, h5, by decide +kernel⟩

/-- A lookup that the Router answers with an internal error: a 500 is sent, and no counter moves. -/
theorem errorCounters_router :
    let lookup := { failingLookup "internal" with
      reads := [requestText "GET /api/v1/routes/decide/m1 HTTP/1.1" "X-Tenant-ID: acme\r\n" []] }
    let run := exec (httpStep (errorHost "internal")) (Gateway.atStart 900) [lookup]
    sent5xx (sentIn run.1) = 1 ∧ run.2.metricRequestsErrors5xx = 0 ∧ run.2.metricRequestsErrorsTotal = 0 := by
  decide +kernel

end CGateway
