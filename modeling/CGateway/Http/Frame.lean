import CGateway.Http.Broadcast
import CGateway.Http.DecidePath

/-! # What a branch does to the flags and to the samples

Only `rate_limit_check` writes the flags of the lazy initialisation, and only the end of a branch takes
a latency sample or counts the request in Prometheus. `Ledger` collects these variables; every handler
leaves the ledger alone, and `serve_ends` says what a whole branch makes of it.

* `reachesLimiter` — the request gets as far as `rate_limit_check`;
* `Ends`, `serve_ends` — the flags and the samples around one request. -/

namespace CGateway

open Bytes CString Json

/-- The variables that no handler writes. -/
structure Ledger where
  rlInitialized : Bool
  authRequired : Bool
  metricHttpRequestsTotal : ℕ
  latencyIndex : ℕ

/-- The ledger of a gateway. -/
def Gateway.ledger (g : Gateway) : Ledger :=
  ⟨g.rlInitialized, g.authRequired, g.metricHttpRequestsTotal, g.latencyIndex⟩

section Handlers

variable {h : Host} {x : Exchange} {ctx : RequestContext} {w : World}

@[simp] theorem ledger_countDecidePost (g : Gateway) : (countDecidePost g).ledger = g.ledger := rfl

@[simp] theorem ledger_countDecideGet (g : Gateway) : (countDecideGet g).ledger = g.ledger := rfl

@[simp] theorem ledger_setSseSlot (i : Fin 64) (client : Option SseClient) (g : Gateway) :
    (setSseSlot i client g).ledger = g.ledger := rfl

@[simp] theorem ledger_sendResponse (status : StatusLine) (body : List UInt8) :
    (sendResponse status body w).gateway.ledger = w.gateway.ledger := rfl

@[simp] theorem ledger_sendErrorResponse (status : StatusLine) (code message : String) :
    (sendErrorResponse status code message ctx w).gateway.ledger = w.gateway.ledger := rfl

@[simp] theorem ledger_sendRateLimitError (endpoint : RlEndpoint) :
    (sendRateLimitError h x endpoint ctx w).gateway.ledger = w.gateway.ledger := by
  unfold sendRateLimitError
  dsimp only
  split <;> rfl

@[simp] theorem ledger_closeClient : (closeClient x w).gateway.ledger = w.gateway.ledger := rfl

@[simp] theorem ledger_finish : (finish x w).gateway.ledger = w.gateway.ledger := rfl

/-! ### Event subscribers -/

@[simp] theorem ledger_sseRegisterClient (tenantId : List UInt8) :
    (sseRegisterClient x tenantId w).2.gateway.ledger = w.gateway.ledger :=
  frame_sseRegisterClient ledger_setSseSlot w tenantId

@[simp] theorem ledger_sseBroadcastJson (tenantId event json : List UInt8) :
    (sseBroadcastJson x tenantId event json w).gateway.ledger = w.gateway.ledger :=
  frame_sseBroadcastJson ledger_setSseSlot w tenantId event json

/-! ### The decision -/

@[simp] theorem ledger_handleDecide (body : List UInt8) :
    (handleDecide h x body ctx w).gateway.ledger = w.gateway.ledger :=
  frame_handleDecide (fun _ _ => rfl) (fun _ _ => rfl) (fun _ _ => rfl) (fun _ _ => rfl) w

/-! ### The other handlers -/

@[simp] theorem ledger_handleRegistryDelete (type version : List UInt8) :
    (handleRegistryDelete x type version w).gateway.ledger = w.gateway.ledger := by
  unfold handleRegistryDelete
  split <;> rfl

@[simp] theorem ledger_handleRegistryWriteCommon (type version body : List UInt8) :
    (handleRegistryWriteCommon h x type version body w).gateway.ledger = w.gateway.ledger := by
  unfold handleRegistryWriteCommon
  split
  · rfl
  · split
    · rfl
    · split
      · rfl
      · split <;> rfl

@[simp] theorem ledger_handleMetricsRequest : (handleMetricsRequest x w).gateway.ledger = w.gateway.ledger := by
  unfold handleMetricsRequest
  split <;> rfl

@[simp] theorem ledger_handleQuery (query : RouterQuery) :
    (handleQuery x query ctx w).gateway.ledger = w.gateway.ledger := by
  unfold handleQuery
  dsimp only
  split <;> rfl

@[simp] theorem ledger_handleMappedQuery (query : RouterQuery) :
    (handleMappedQuery h x query ctx w).gateway.ledger = w.gateway.ledger := by
  unfold handleMappedQuery
  dsimp only
  split <;> rfl

@[simp] theorem ledger_handleDryRunPipeline (body : List UInt8) :
    (handleDryRunPipeline h x body ctx w).gateway.ledger = w.gateway.ledger := by
  unfold handleDryRunPipeline
  split
  · rfl
  · exact ledger_handleMappedQuery _

@[simp] theorem ledger_handlePipelineComplexity (tenantId policyId : List UInt8) :
    (handlePipelineComplexity h x tenantId policyId ctx w).gateway.ledger = w.gateway.ledger := by
  unfold handlePipelineComplexity
  split
  · rfl
  · exact ledger_handleMappedQuery _

@[simp] theorem ledger_handleGetDecision (messageId : List UInt8) :
    (handleGetDecision h x messageId ctx w).gateway.ledger = w.gateway.ledger := by
  unfold handleGetDecision
  split
  · rfl
  · split
    · rfl
    · dsimp only
      split
      · rfl
      · split
        · rw [ledger_sseBroadcastJson]
          rfl
        · rfl

end Handlers

/-! ### The limit check -/

/-- The ledger after `rate_limit_init_if_needed`. -/
def Ledger.arm (h : Host) (l : Ledger) : Ledger :=
  if l.rlInitialized then l
  else
    { l with
      rlInitialized := true
      authRequired := envToBool h.getenv "GATEWAY_AUTH_REQUIRED" false }

/-- A gateway is armed once. -/
theorem Ledger.arm_of_initialized (h : Host) {l : Ledger} (hinit : l.rlInitialized = true) : l.arm h = l := if_pos hinit

/-- Arming reads the setting. -/
theorem Ledger.arm_of_fresh (h : Host) {l : Ledger} (hinit : l.rlInitialized = false) :
    (l.arm h).rlInitialized = true ∧ (l.arm h).authRequired = envToBool h.getenv "GATEWAY_AUTH_REQUIRED" false := by
  rw [Ledger.arm, if_neg (by rw [hinit]; decide)]
  exact ⟨rfl, rfl⟩

theorem ledger_rateLimitInitIfNeeded (h : Host) (x : Exchange) (g : Gateway) :
    (rateLimitInitIfNeeded h x g).ledger = g.ledger.arm h := by
  unfold rateLimitInitIfNeeded Ledger.arm
  by_cases hinit : g.rlInitialized = true
  · rw [if_pos hinit, if_pos (show g.ledger.rlInitialized = true from hinit)]
  · rw [if_neg hinit, if_neg (show ¬g.ledger.rlInitialized = true from hinit)]
    rfl

/-- A limit check arms the gateway, whatever it answers. -/
theorem ledger_rateLimitCheck (h : Host) (x : Exchange) (endpoint : RlEndpoint)
    (tenantId : Option (List UInt8)) (w : World) :
    (rateLimitCheck h x endpoint tenantId w).2.gateway.ledger = w.gateway.ledger.arm h := by
  obtain ⟨g', commands, hcheck⟩ := rateLimitCheck_spec h x w endpoint tenantId
  rw [hcheck]
  exact ledger_rateLimitInitIfNeeded h x w.gateway

/-! ### A whole branch -/

/-- The ledger with one more latency sample. -/
def Ledger.sampleLatency (l : Ledger) : Ledger := { l with latencyIndex := (l.latencyIndex + 1) % 256 }

/-- The ledger with one more latency sample and one more request in Prometheus. -/
def Ledger.sampleRequest (l : Ledger) : Ledger :=
  { l.sampleLatency with metricHttpRequestsTotal := l.metricHttpRequestsTotal + 1 }

@[simp] theorem ledger_sampleLatency (x : Exchange) (w : World) :
    (CGateway.sampleLatency x w).gateway.ledger = w.gateway.ledger.sampleLatency := rfl

@[simp] theorem ledger_sampleRequest (x : Exchange) (w : World) :
    (CGateway.sampleRequest x w).gateway.ledger = w.gateway.ledger.sampleRequest := rfl

/-- How a branch ends: without a sample, with a latency sample, or with both. -/
inductive Ends (l : Ledger) : Ledger → Prop
  | plain : Ends l l
  | latency : Ends l l.sampleLatency
  | request : Ends l l.sampleRequest

/-- Samples leave the flags alone. -/
theorem Ends.flags {l l' : Ledger} (hends : Ends l l') :
    l'.rlInitialized = l.rlInitialized ∧ l'.authRequired = l.authRequired := by
  cases hends <;> exact ⟨rfl, rfl⟩

/-- The request gets as far as `rate_limit_check`, in a gateway with that authentication flag. -/
def reachesLimiter (authRequired : Bool) (rq : HttpRequest) : Bool :=
  match routeOf rq.method rq.path with
  | .registry rest => (rest.dropWhile (· != 47)).drop 1 != []
  | .getDecision messageId => messageId != []
  | .message messageId => messageId != [] && rq.ctx.tenantId != []
  | .decide _ => !(authRequired && !rq.hasAuthHeader) && rq.hasTenantHeader
  | _ => false

/-- The ledger around a request that gets as far as the limiter, or does not. -/
def Ledger.reach (h : Host) (reached : Bool) (l : Ledger) : Ledger := if reached then l.arm h else l

section Branches

variable {h : Host} {x : Exchange} {rq : HttpRequest} {ctx : RequestContext} {w : World}

section Checked

variable {endpoint : RlEndpoint} {tenantId : Option (List UInt8)} {verdict : RlVerdict} {w' : World}
  (hcheck : rateLimitCheck h x endpoint tenantId w = (verdict, w'))
include hcheck

/-- The world behind a limit check is armed. -/
theorem ledger_of_check : w'.gateway.ledger = w.gateway.ledger.arm h := by
  rw [← ledger_rateLimitCheck h x endpoint tenantId w, hcheck]

/-- A request that is limited takes no sample. -/
theorem limited_ends : Ends (w.gateway.ledger.arm h) (sendRateLimitError h x endpoint ctx w').gateway.ledger := by
  rw [ledger_sendRateLimitError, ledger_of_check hcheck]
  exact .plain

end Checked

theorem serveRegistry_ends (rest : List UInt8) :
    Ends (w.gateway.ledger.reach h ((rest.dropWhile (· != 47)).drop 1 != []))
      (serveRegistry h x rq rest w).gateway.ledger := by
  unfold serveRegistry
  dsimp only
  split
  · rename_i heq
    rw [heq]
    exact .latency
  · rename_i slash version heq
    rw [heq, List.drop_one, List.tail_cons]
    by_cases hv : version = []
    · rw [if_pos hv, hv]
      exact .latency
    · rw [if_neg hv, bne_iff_ne.mpr hv]
      split
      · rename_i w' hcheck
        rw [ledger_finish, ledger_sampleLatency]
        split
        · rw [ledger_handleRegistryDelete, ledger_of_check hcheck]
          exact .latency
        · rw [ledger_handleRegistryWriteCommon, ledger_of_check hcheck]
          exact .latency
      · rename_i w' _ hcheck
        rw [ledger_finish]
        exact limited_ends hcheck

theorem serveGetDecision_ends (messageId : List UInt8) :
    Ends (w.gateway.ledger.reach h (messageId != []))
      (serveGetDecision h x rq messageId w).gateway.ledger := by
  unfold serveGetDecision
  by_cases hid : messageId = []
  · rw [if_pos hid, hid]
    exact .plain
  · rw [if_neg hid, bne_iff_ne.mpr hid]
    split
    · rename_i w' hcheck
      rw [ledger_finish, ledger_sampleLatency, ledger_handleGetDecision, World.update_gateway,
        ledger_countDecideGet, ledger_of_check hcheck]
      exact .latency
    · rename_i w' _ hcheck
      rw [ledger_finish]
      exact limited_ends hcheck

/-- A message request that is not refused at once takes its latency sample only when it is answered
with success. -/
theorem putMessage_ends (messageId : List UInt8) :
    Ends w.gateway.ledger (putMessage h x rq messageId w).gateway.ledger := by
  unfold putMessage
  split
  · exact .plain
  · split
    · exact .plain
    · split
      · exact .plain
      · rw [ledger_finish, ledger_sampleLatency, ledger_sseBroadcastJson, ledger_sendResponse]
        exact .latency

theorem deleteMessage_ends (messageId : List UInt8) :
    Ends w.gateway.ledger (deleteMessage x rq messageId w).gateway.ledger := by
  unfold deleteMessage
  dsimp only
  split
  · exact .plain
  · rw [ledger_finish, ledger_sampleLatency]
    split
    · rw [ledger_sseBroadcastJson, ledger_sendResponse]
      exact .latency
    · exact .latency

theorem serveMessage_ends (messageId : List UInt8) :
    Ends (w.gateway.ledger.reach h (messageId != [] && rq.ctx.tenantId != []))
      (serveMessage h x rq messageId w).gateway.ledger := by
  unfold serveMessage
  by_cases hid : messageId = []
  · rw [if_pos hid, hid]
    exact .plain
  · by_cases htenant : rq.ctx.tenantId = []
    · rw [if_neg hid, if_pos htenant, htenant]
      simp only [bne_self_eq_false, Bool.and_false]
      exact .plain
    · rw [if_neg hid, if_neg htenant, bne_iff_ne.mpr hid, bne_iff_ne.mpr htenant]
      change Ends (w.gateway.ledger.arm h) _
      split
      · rename_i w' hcheck
        rw [← ledger_of_check hcheck]
        split
        · exact putMessage_ends messageId
        · exact deleteMessage_ends messageId
      · rename_i w' _ hcheck
        rw [ledger_closeClient]
        exact limited_ends hcheck

theorem serveStream_ends : Ends w.gateway.ledger (serveStream x rq w).gateway.ledger := by
  unfold serveStream
  split
  · exact .plain
  · exact .plain
  · rename_i tenant _ _
    have hreg := ledger_sseRegisterClient (x := x) (w := w) tenant
    split
    · rename_i w' heq
      rw [heq] at hreg
      rw [← hreg]
      exact .latency
    · rename_i w' heq
      rw [heq] at hreg
      rw [← hreg]
      exact .latency

theorem serveAdmitted_ends (h : Host) (x : Exchange) (rq : HttpRequest) (w : World) :
    Ends w.gateway.ledger (serveAdmitted h x rq w).gateway.ledger := by
  unfold serveAdmitted
  rw [ledger_finish, ledger_sampleRequest, ledger_handleDecide]
  exact .request

theorem serveDecide_ends (endpoint : RlEndpoint) :
    Ends (w.gateway.ledger.reach h (!(w.gateway.authRequired && !rq.hasAuthHeader) && rq.hasTenantHeader))
      (serveDecide h x rq endpoint w).gateway.ledger := by
  unfold serveDecide
  cases hauth : w.gateway.authRequired && !rq.hasAuthHeader with
  | true =>
    rw [if_pos rfl]
    exact .plain
  | false =>
    rw [if_neg (by decide)]
    cases htenant : rq.hasTenantHeader with
    | false => exact .plain
    | true =>
      rw [if_neg (by decide)]
      change Ends (w.gateway.ledger.arm h) _
      split
      · -- The decide route, with its three verdicts.
        split
        · rename_i w' hcheck
          have hends := serveAdmitted_ends h x rq (w'.update countDecidePost)
          rw [World.update_gateway, ledger_countDecidePost, ledger_of_check hcheck] at hends
          exact hends
        · rename_i w' hcheck
          rw [ledger_finish]
          exact limited_ends hcheck
        · rename_i w' hcheck
          rw [ledger_finish, ledger_sendErrorResponse, ledger_of_check hcheck]
          exact .plain
      · -- The messages route, which limits a request whose limiter fails.
        split
        · rename_i w' hcheck
          rw [← ledger_of_check hcheck]
          exact serveAdmitted_ends h x rq w'
        · rename_i w' _ hcheck
          rw [ledger_finish]
          exact limited_ends hcheck

theorem servePolicies_ends (rest : List UInt8) :
    Ends w.gateway.ledger (servePolicies h x rq rest w).gateway.ledger := by
  unfold servePolicies
  split
  · exact .plain
  · dsimp only
    split
    · rw [ledger_finish, ledger_sampleRequest, ledger_handlePipelineComplexity]
      exact .request
    · exact .plain

/-- **What a request does to the flags and the samples.** It arms the gateway just when it gets as far
as the limiter, and its branch ends in one of three ways. -/
theorem serve_ends (h : Host) (x : Exchange) (rq : HttpRequest) (w : World) :
    Ends (w.gateway.ledger.reach h (reachesLimiter w.gateway.authRequired rq))
      (serve h x rq w).gateway.ledger := by
  unfold serve reachesLimiter
  cases routeOf rq.method rq.path with
  | registry rest => exact serveRegistry_ends rest
  | getDecision messageId => exact serveGetDecision_ends messageId
  | message messageId => exact serveMessage_ends messageId
  | stream => exact serveStream_ends
  | decide endpoint => exact serveDecide_ends endpoint
  | policies rest => exact servePolicies_ends rest
  | metrics =>
    rw [ledger_finish, ledger_sampleRequest, ledger_handleMetricsRequest]
    exact .request
  | extensionsHealth =>
    rw [ledger_finish, ledger_sampleRequest, ledger_handleQuery]
    exact .request
  | circuitBreakers =>
    rw [ledger_finish, ledger_sampleRequest, ledger_handleQuery]
    exact .request
  | dryRun =>
    rw [ledger_finish, ledger_sampleRequest, ledger_handleDryRunPipeline]
    exact .request
  | health => exact .request
  | metricsJson => exact .request
  | unknown => exact .request

end Branches

end CGateway
