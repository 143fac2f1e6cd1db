import CGateway.Lib.EventStream
import CGateway.Http.Broadcast
import CGateway.Http.DecidePath

/-! # The registry and the subscribers between requests

The gateway keeps two tables from one connection to the next that clients write to: the registry of blocks
and the pool of event subscribers. Most of `handle_client` leaves both alone and tells the subscribers
nothing. `Keeps` says so of a piece of the code, together with what the piece does to the spans, and
composes along the code.

* `Effect.IsPrivate` — an effect on no subscriber;
* `spanOps` — the operations on spans among the effects;
* `Leaves`, `Keeps` — a piece of the code leaves the subscribers alone, or both tables;
* `keeps_handleDecide`, `keeps_rateLimitCheck` and others — the pieces that do;
* `announced` — the event that a request brings about;
* `Tells` — a piece of the code tells the subscribers of a tenant one event, or nothing;
* `serve_tells` — a request that is neither for the registry nor a subscription tells them what is
  announced. -/

namespace CGateway

open Bytes CString Json EventStream

/-- The effect is not written to an event stream. -/
def Effect.IsPrivate : Effect → Prop
  | .openStream _ | .sseWrite _ _ => False
  | _ => True

/-- An operation on a span. -/
inductive SpanOp where
  | start (span : Span)
  | stop (span : Span)
  deriving DecidableEq, Repr

/-- The operation on a span that an effect is. -/
def Effect.spanOp? : Effect → Option SpanOp
  | .spanStart span => some (.start span)
  | .spanEnd span => some (.stop span)
  | _ => none

/-- The operations on spans among the effects. -/
def spanOps (effects : List Effect) : List SpanOp := effects.filterMap Effect.spanOp?

theorem spanOps_append (a b : List Effect) : spanOps (a ++ b) = spanOps a ++ spanOps b := List.filterMap_append

/-- The subscribers are left alone, and the spans are operated on like that. -/
structure Leaves (ops : List SpanOp) (w w' : World) : Prop where
  sseClients : w'.gateway.sseClients = w.gateway.sseClients
  effects : ∃ rest, w'.effects = w.effects ++ rest ∧ (∀ e ∈ rest, e.IsPrivate) ∧ spanOps rest = ops

/-- The registry is left alone, too. -/
structure Keeps (ops : List SpanOp) (w w' : World) : Prop where
  registry : w'.gateway.registry = w.gateway.registry
  leaves : Leaves ops w w'

namespace Leaves

variable {ops ops' : List SpanOp} {w w' w'' : World}

/-- One effect that concerns no span. -/
theorem of_effect {e : Effect} (hpool : w'.gateway.sseClients = w.gateway.sseClients)
    (heffects : w'.effects = w.effects ++ [e]) (hprivate : e.IsPrivate) (hop : e.spanOp? = none) : Leaves [] w w' := by
  refine ⟨hpool, [e], heffects, ?_, ?_⟩
  · rw [List.forall_mem_singleton]
    exact hprivate
  · exact List.filterMap_cons_none hop

theorem trans (h : Leaves ops w w') (h' : Leaves ops' w' w'') : Leaves (ops ++ ops') w w'' := by
  obtain ⟨rest, hrest, hprivate, rfl⟩ := h.effects
  obtain ⟨rest', hrest', hprivate', rfl⟩ := h'.effects
  refine ⟨h'.sseClients.trans h.sseClients, rest ++ rest', ?_, ?_, spanOps_append ..⟩
  · rw [hrest', hrest, List.append_assoc]
  · rw [List.forall_mem_append]
    exact ⟨hprivate, hprivate'⟩

/-- A reading of the effects that passes over the private ones reads nothing new. -/
theorem filterMap_eq {β : Type} (h : Leaves ops w w') (read? : Effect → Option β)
    (hread : ∀ e : Effect, e.IsPrivate → read? e = none) : w'.effects.filterMap read? = w.effects.filterMap read? := by
  obtain ⟨rest, hrest, hprivate, -⟩ := h.effects
  have hnone : rest.filterMap read? = [] := by
    rw [List.filterMap_eq_nil_iff]
    intro e he
    exact hread e (hprivate e he)
  rw [hrest, List.filterMap_append, hnone, List.append_nil]

/-- What is done to the spans. -/
theorem spanOps_eq (h : Leaves ops w w') : spanOps w'.effects = spanOps w.effects ++ ops := by
  obtain ⟨rest, hrest, -, rfl⟩ := h.effects
  rw [hrest, spanOps_append]

end Leaves

namespace Keeps

variable {ops ops' : List SpanOp} {w w' w'' : World}

/-- Nothing is done but to other parts of the gateway. -/
theorem of_silent (hregistry : w'.gateway.registry = w.gateway.registry)
    (hpool : w'.gateway.sseClients = w.gateway.sseClients) (heffects : w'.effects = w.effects) : Keeps [] w w' :=
  ⟨hregistry, hpool, [], heffects.trans (List.append_nil _).symm, nofun, rfl⟩

theorem refl (w : World) : Keeps [] w w := of_silent rfl rfl rfl

theorem trans (h : Keeps ops w w') (h' : Keeps ops' w' w'') : Keeps (ops ++ ops') w w'' :=
  ⟨h'.registry.trans h.registry, h.leaves.trans h'.leaves⟩

/-- One more effect that concerns no span. -/
theorem emit (w : World) {e : Effect} (hprivate : e.IsPrivate) (hop : e.spanOp? = none) : Keeps [] w (w.emit e) :=
  ⟨rfl, .of_effect rfl rfl hprivate hop⟩

end Keeps

/-! ### Answers and samples -/

section Plain

variable {h : Host} {x : Exchange} {ctx : RequestContext} (w : World)

/-- A response, with or without its counters. -/
theorem keeps_respond (r : Response) : Keeps [] w (w.emit (.respond r)) := .emit w trivial rfl

theorem keeps_sendResponse (status : StatusLine) (body : List UInt8) :
    Keeps [] w (sendResponse status body w) := keeps_respond w _

theorem keeps_sendErrorResponse (status : StatusLine) (code message : String) :
    Keeps [] w (sendErrorResponse status code message ctx w) :=
  ⟨rfl, .of_effect rfl rfl trivial rfl⟩

theorem keeps_sendRateLimitError (endpoint : RlEndpoint) : Keeps [] w (sendRateLimitError h x endpoint ctx w) := by
  refine ⟨?_, .of_effect ?_ (effects_sendRateLimitError h x ctx w endpoint) trivial rfl⟩
  all_goals
    unfold sendRateLimitError
    by_cases hfits : (rateLimitResponse h x endpoint ctx).body.length < maxMessageSize
    · simp only [if_pos hfits]
      rfl
    · simp only [if_neg hfits]
      rfl

theorem keeps_closeClient : Keeps [] w (closeClient x w) := .emit w trivial rfl

theorem keeps_sampleLatency : Keeps [] w (sampleLatency x w) := .of_silent rfl rfl rfl

theorem keeps_sampleRequest : Keeps [] w (sampleRequest x w) := .of_silent rfl rfl rfl

/-! ### Limits and queries -/

/-- The limit check initialises and counts, but in neither table. -/
theorem keeps_rateLimitCheck (endpoint : RlEndpoint) (tenantId : Option (List UInt8)) :
    Keeps [] w (rateLimitCheck h x endpoint tenantId w).2 := by
  obtain ⟨g', commands, hcheck⟩ := rateLimitCheck_spec h x w endpoint tenantId
  have htables : (rateLimitInitIfNeeded h x w.gateway).registry = w.gateway.registry ∧
      (rateLimitInitIfNeeded h x w.gateway).sseClients = w.gateway.sseClients := by
    unfold rateLimitInitIfNeeded
    split <;> exact ⟨rfl, rfl⟩
  have hspans : spanOps (.rateLimitCheck endpoint tenantId :: commands.map .redis) = [] :=
    filterMap_redis Effect.spanOp? (fun _ => rfl) commands
  rw [hcheck]
  refine ⟨htables.1, htables.2, _, rfl, ?_, hspans⟩
  rw [List.forall_mem_cons, List.forall_mem_map]
  exact ⟨trivial, fun _ _ => trivial⟩

theorem keeps_handleHealth : Keeps [] w (handleHealth h x w) := keeps_respond w _

theorem keeps_handleMetricsJson : Keeps [] w (handleMetricsJson h x w) := ⟨rfl, .of_effect rfl rfl trivial rfl⟩

theorem keeps_handleMetricsRequest : Keeps [] w (handleMetricsRequest x w) := by
  unfold handleMetricsRequest
  split <;> exact keeps_respond w _

theorem keeps_handleQuery (query : RouterQuery) : Keeps [] w (handleQuery x query ctx w) := by
  have hquery : Keeps [] w (w.emit (.natsQuery query)) := .emit w trivial rfl
  unfold handleQuery
  dsimp only
  split
  · exact hquery.trans (keeps_sendErrorResponse ..)
  · exact hquery.trans (keeps_sendResponse ..)

theorem keeps_handleMappedQuery (query : RouterQuery) : Keeps [] w (handleMappedQuery h x query ctx w) := by
  have hquery : Keeps [] w (w.emit (.natsQuery query)) := .emit w trivial rfl
  unfold handleMappedQuery
  dsimp only
  split
  · exact hquery.trans (keeps_sendErrorResponse ..)
  · exact hquery.trans (keeps_sendResponse ..)

theorem keeps_handleDryRunPipeline (body : List UInt8) : Keeps [] w (handleDryRunPipeline h x body ctx w) := by
  unfold handleDryRunPipeline
  split
  · exact keeps_sendErrorResponse ..
  · exact keeps_handleMappedQuery ..

theorem keeps_handlePipelineComplexity (tenantId policyId : List UInt8) :
    Keeps [] w (handlePipelineComplexity h x tenantId policyId ctx w) := by
  unfold handlePipelineComplexity
  split
  · exact keeps_sendErrorResponse ..
  · exact keeps_handleMappedQuery ..

end Plain

/-! ### The decision -/

section Decision

variable {h : Host} {x : Exchange} {ctx : RequestContext} {w : World}

/-- The effects of `handle_decide` behind its entry are private. -/
theorem DecideEnds.isPrivate {body : List UInt8} {g : Gateway} {rest : List Effect}
    (hends : DecideEnds h x body ctx g rest) : ∀ e ∈ rest, e.IsPrivate := by
  cases hends with
  | empty | overloaded | denied => simp [Effect.IsPrivate]
  | forwarded hbody hactive hdeny event hends =>
    have htracking : ∀ e ∈ tracking ctx event, e.IsPrivate := by
      unfold tracking
      split <;> simp [Effect.IsPrivate]
    rw [List.forall_mem_append]
    refine ⟨htracking, ?_⟩
    cases hends <;> simp [routerCall, Effect.IsPrivate]

/-- **A decision keeps both tables and tells the subscribers nothing.** -/
theorem keeps_handleDecide (body : List UInt8) : ∃ ops, Keeps ops w (handleDecide h x body ctx w) := by
  obtain ⟨rest, hrest, hends⟩ := handleDecide_ends h x body ctx w
  refine ⟨_, ?_, ?_, _, hrest, List.forall_mem_cons.mpr ⟨trivial, hends.isPrivate⟩, rfl⟩
  · exact frame_handleDecide (fun _ _ => rfl) (fun _ _ => rfl) (fun _ _ => rfl) (fun _ _ => rfl) w
  · exact frame_handleDecide (fun _ _ => rfl) (fun _ _ => rfl) (fun _ _ => rfl) (fun _ _ => rfl) w

end Decision

/-! ### What is announced -/

/-- The event of a decision that is passed on as a success. -/
def decisionEvent (h : Host) (x : Exchange) (ctx : RequestContext) (messageId : List UInt8) :
    Option Event :=
  (x.natsQuery (.getDecision ctx.tenantId messageId)).bind fun reply =>
    if queryStatusLine (mapRouterErrorStatus h.jsonLoads (respBuf reply)) = .ok then
      some ⟨ascii "message_created", respBuf reply⟩
    else none

/-- The event of a message whose body is accepted. -/
def updatedEvent (h : Host) (rq : HttpRequest) (messageId : List UInt8) : Option Event :=
  (asObject (h.jsonLoads rq.body)).bind fun members =>
    if rq.body = [] ∨ messageIdMismatch members messageId then none
    else some ⟨ascii "message_updated", rq.body⟩

/-- The event of a message that is deleted. -/
def deletedEvent (messageId : List UInt8) : Event :=
  ⟨ascii "message_deleted", ascii "\x7b\"message_id\":\"" ++ messageId ++ ascii "\"\x7d"⟩

/-- The event that a request for a message brings about, behind the limit. -/
def messageEvent (h : Host) (rq : HttpRequest) (messageId : List UInt8) : Option Event :=
  if rq.method = ascii "PUT" then updatedEvent h rq messageId
  else if (deletedEvent messageId).data.length < 128 then some (deletedEvent messageId)
  else none

/-- The request names a message and a tenant, and the limit lets it pass. -/
def passesAs (h : Host) (x : Exchange) (g : Gateway) (endpoint : RlEndpoint) (messageId : List UInt8)
    (ctx : RequestContext) : Prop :=
  messageId ≠ [] ∧ ctx.tenantId ≠ [] ∧ limitVerdict h x g endpoint (some ctx.tenantId) = .allowed

instance (h : Host) (x : Exchange) (g : Gateway) (endpoint : RlEndpoint) (messageId : List UInt8)
    (ctx : RequestContext) : Decidable (passesAs h x g endpoint messageId ctx) :=
  inferInstanceAs (Decidable (_ ∧ _ ∧ _))

/-- Counting the request does not change whether it passes. -/
theorem passesAs_countRequest {h : Host} {x : Exchange} {g : Gateway} {endpoint : RlEndpoint}
    {messageId : List UInt8} {ctx : RequestContext} :
    passesAs h x (countRequest g) endpoint messageId ctx ↔ passesAs h x g endpoint messageId ctx := by
  rw [passesAs, passesAs, limitVerdict_countRequest]

/-- The event that a request brings about. -/
def announced (h : Host) (x : Exchange) (g : Gateway) (rq : HttpRequest) : Option Event :=
  match routeOf rq.method rq.path with
  | .getDecision messageId =>
      if passesAs h x g .routesDecide messageId rq.ctx then decisionEvent h x rq.ctx messageId else none
  | .message messageId =>
      if passesAs h x g .messages messageId rq.ctx then messageEvent h rq messageId else none
  | _ => none

/-! ### Branches -/

/-- The subscribers of the tenant are told this event, or nothing, and the spans are operated on like
that. -/
inductive Tells (x : Exchange) (tenantId : List UInt8) (w w' : World) :
    Option Event → List SpanOp → Prop
  | nothing {ops : List SpanOp} (h : Keeps ops w w') : Tells x tenantId w w' none ops
  | event {before : World} {ops : List SpanOp} (event : Event) (htenant : tenantId ≠ [])
      (hbefore : Keeps [] w before)
      (hafter : Keeps ops (sseBroadcastJson x tenantId event.name event.data before) w') :
      Tells x tenantId w w' (some event) ops

/-- The end of the request's span, where it is ended. -/
def closing (ends : Prop) [Decidable ends] : List SpanOp := if ends then [.stop .http] else []

theorem closing_of {ends : Prop} [Decidable ends] (hends : ends) : closing ends = [.stop .http] := if_pos hends

theorem closing_of_not {ends : Prop} [Decidable ends] (hends : ¬ ends) : closing ends = [] := if_neg hends

/-- The pool is not the registry. -/
theorem registry_setSseSlot (i : Fin 64) (client : Option SseClient) (g : Gateway) :
    (setSseSlot i client g).registry = g.registry := rfl

/-- Telling leaves the registry alone. -/
theorem Tells.registry {x : Exchange} {tenantId : List UInt8} {w w' : World} {told : Option Event}
    {ops : List SpanOp} (h : Tells x tenantId w w' told ops) : w'.gateway.registry = w.gateway.registry := by
  cases h with
  | nothing h => exact h.registry
  | event event htenant hbefore hafter =>
    rw [hafter.registry, frame_sseBroadcastJson registry_setSseSlot, hbefore.registry]

section Branches

variable {h : Host} {x : Exchange} {rq : HttpRequest} {w : World}

theorem keeps_finish (w : World) : Keeps [.stop .http] w (finish x w) := by
  refine ⟨rfl, rfl, [.spanEnd .http, .close x.fd], List.append_assoc .., ?_, rfl⟩
  rw [List.forall_mem_cons, List.forall_mem_singleton]
  exact ⟨trivial, trivial⟩

variable {w' : World} {tenantId : List UInt8} {told : Option Event} {ops : List SpanOp}

/-- The common end. -/
theorem Keeps.finish (hkeeps : Keeps [] w w') : Keeps [.stop .http] w (finish x w') := hkeeps.trans (keeps_finish w')

/-- A sample in between. -/
theorem Keeps.finish_sampleRequest (hkeeps : Keeps [] w w') :
    Keeps [.stop .http] w (CGateway.finish x (sampleRequest x w')) :=
  (hkeeps.trans (keeps_sampleRequest w')).finish

/-- An error that closes the connection at once. -/
theorem keeps_refused (status : StatusLine) (code message : String) (w : World) :
    Keeps [] w (closeClient x (sendErrorResponse status code message rq.ctx w)) :=
  (keeps_sendErrorResponse w ..).trans (keeps_closeClient _)

/-- More may be done before an event and behind it. -/
theorem Tells.after {w₀ : World} (hbefore : Keeps [] w₀ w) (htells : Tells x tenantId w w' told ops) :
    Tells x tenantId w₀ w' told ops := by
  cases htells with
  | nothing hkeeps => exact .nothing (hbefore.trans hkeeps)
  | event event htenant hbefore' hafter => exact .event event htenant (hbefore.trans hbefore') hafter

theorem Tells.before {w'' : World} {ops' : List SpanOp} (htells : Tells x tenantId w w' told ops)
    (hafter : Keeps ops' w' w'') : Tells x tenantId w w'' told (ops ++ ops') := by
  cases htells with
  | nothing hkeeps => exact .nothing (hkeeps.trans hafter)
  | event event htenant hbefore hafter' => exact .event event htenant hbefore (hafter'.trans hafter)

/-- An event is no operation on a span. -/
theorem spanOps_sseBroadcastJson (htenant : tenantId ≠ []) (event json : List UInt8) (w : World) :
    spanOps (sseBroadcastJson x tenantId event json w).effects = spanOps w.effects := by
  obtain ⟨rest, hrest, htold⟩ := (sseBroadcastJson_announces (x := x) htenant event json w).effects
  have hnone : spanOps rest = [] := by
    rw [spanOps, List.filterMap_eq_nil_iff]
    intro e he
    have hone := htold e he
    cases e with
    | spanStart span => exact hone.elim
    | spanEnd span => exact hone.elim
    | _ => rfl
  rw [hrest, spanOps_append, hnone, List.append_nil]

/-- What is done to the spans. -/
theorem Tells.spanOps_eq (htells : Tells x tenantId w w' told ops) : spanOps w'.effects = spanOps w.effects ++ ops := by
  cases htells with
  | nothing hkeeps => exact hkeeps.leaves.spanOps_eq
  | event event htenant hbefore hafter =>
    rw [hafter.leaves.spanOps_eq, spanOps_sseBroadcastJson htenant, hbefore.leaves.spanOps_eq, List.append_nil]

section Checked

variable {endpoint : RlEndpoint} {tenantId : Option (List UInt8)} {verdict : RlVerdict}
  (hcheck : rateLimitCheck h x endpoint tenantId w = (verdict, w'))
include hcheck

/-- The world behind a limit check. -/
theorem keeps_of_check : Keeps [] w w' := by
  have hkeeps := keeps_rateLimitCheck (h := h) (x := x) w endpoint tenantId
  rwa [hcheck] at hkeeps

/-- The verdict of a limit check. -/
theorem verdict_of_check : limitVerdict h x w.gateway endpoint tenantId = verdict := by
  obtain ⟨g', commands, hspec⟩ := rateLimitCheck_spec h x w endpoint tenantId
  exact congrArg Prod.fst (hspec.symm.trans hcheck)

end Checked

theorem tells_handleGetDecision {messageId : List UInt8} (hid : messageId ≠ []) (w : World) :
    Tells x rq.ctx.tenantId w (handleGetDecision h x messageId rq.ctx w)
      (if rq.ctx.tenantId = [] then none else decisionEvent h x rq.ctx messageId) [] := by
  unfold handleGetDecision decisionEvent
  rw [if_neg hid]
  split
  · exact .nothing (keeps_sendErrorResponse w ..)
  · next htenant =>
      have hquery : Keeps [] w
          (w.emit (.natsQuery (.getDecision rq.ctx.tenantId messageId))) := .emit w trivial rfl
      dsimp only
      cases x.natsQuery (.getDecision rq.ctx.tenantId messageId) with
      | none => exact .nothing (hquery.trans (keeps_sendErrorResponse ..))
      | some reply =>
        rw [Option.bind_some]
        dsimp only
        split
        · exact .event _ htenant (hquery.trans (keeps_sendResponse ..)) (.refl _)
        · exact .nothing (hquery.trans (keeps_sendResponse ..))

theorem tells_serveGetDecision (messageId : List UInt8) (w : World) :
    Tells x rq.ctx.tenantId w (serveGetDecision h x rq messageId w)
      (if passesAs h x w.gateway .routesDecide messageId rq.ctx then decisionEvent h x rq.ctx messageId
        else none) [.stop .http] := by
  unfold serveGetDecision
  by_cases hid : messageId = []
  · rw [if_pos hid, if_neg fun hpasses => hpasses.1 hid]
    exact .nothing (keeps_sendErrorResponse w ..).finish
  · rw [if_neg hid]
    split
    · next w' hcheck =>
        have hcounted : Keeps [] w' (w'.update countDecideGet) := .of_silent rfl rfl rfl
        have htold : (if passesAs h x w.gateway .routesDecide messageId rq.ctx then
              decisionEvent h x rq.ctx messageId else none) =
            if rq.ctx.tenantId = [] then none else decisionEvent h x rq.ctx messageId := by
          by_cases htenant : rq.ctx.tenantId = []
          · rw [if_neg fun hpasses => hpasses.2.1 htenant, if_pos htenant]
          · rw [if_pos ⟨hid, htenant, verdict_of_check hcheck⟩, if_neg htenant]
        rw [htold]
        refine .after ((keeps_of_check hcheck).trans hcounted) ?_
        exact (tells_handleGetDecision hid _).before (keeps_sampleLatency _).finish
    · next verdict w' hstopped hcheck =>
        rw [if_neg fun hpasses => hstopped ((verdict_of_check hcheck).symm.trans hpasses.2.2)]
        exact .nothing ((keeps_of_check hcheck).trans (keeps_sendRateLimitError w' _)).finish

theorem tells_putMessage (htenant : rq.ctx.tenantId ≠ []) (messageId : List UInt8) (w : World) :
    Tells x rq.ctx.tenantId w (putMessage h x rq messageId w) (updatedEvent h rq messageId)
      [.stop .http] := by
  unfold putMessage updatedEvent
  by_cases hbody : rq.body = []
  · have hnone : ((asObject (h.jsonLoads rq.body)).bind fun members =>
        if rq.body = [] ∨ messageIdMismatch members messageId then none
        else some (⟨ascii "message_updated", rq.body⟩ : Event)) = none := by
      rw [Option.bind_eq_none_iff]
      exact fun _ _ => if_pos (.inl hbody)
    rw [if_pos hbody, hnone]
    exact .nothing (keeps_sendErrorResponse w ..).finish
  · rw [if_neg hbody]
    cases asObject (h.jsonLoads rq.body) with
    | none => exact .nothing (keeps_sendErrorResponse w ..).finish
    | some members =>
      rw [Option.bind_some]
      dsimp only
      by_cases hmismatch : messageIdMismatch members messageId = true
      · rw [if_pos hmismatch, if_pos (.inr hmismatch)]
        exact .nothing (keeps_sendErrorResponse w ..).finish
      · rw [if_neg hmismatch, if_neg (not_or.mpr ⟨hbody, hmismatch⟩)]
        exact .event _ htenant (keeps_sendResponse w ..) (keeps_sampleLatency _).finish

/-- The event of a deletion has 17 bytes besides the id. -/
theorem length_deletedEvent (messageId : List UInt8) :
    (deletedEvent messageId).data.length = messageId.length + 17 := by
  have hstart : (ascii "\x7b\"message_id\":\"").length = 15 := length_ascii_ofList _
  have hend : (ascii "\"\x7d").length = 2 := length_ascii_ofList _
  rw [deletedEvent, List.length_append, List.length_append, hstart, hend]
  omega

/-- A deletion whose response does not fit has an event that does not fit either. -/
theorem tells_deleteMessage (htenant : rq.ctx.tenantId ≠ []) (messageId : List UInt8) (w : World) :
    Tells x rq.ctx.tenantId w (deleteMessage x rq messageId w)
      (if (deletedEvent messageId).data.length < 128 then some (deletedEvent messageId) else none)
      (closing (messageId.length < 220)) := by
  have hevent := length_deletedEvent messageId
  have hresponse : (ascii "\x7b\"status\":\"deleted\",\"message_id\":\"" ++ messageId ++
      ascii "\"\x7d").length = messageId.length + 36 := by
    have hstart : (ascii "\x7b\"status\":\"deleted\",\"message_id\":\"").length = 34 := length_ascii_ofList _
    have hend : (ascii "\"\x7d").length = 2 := length_ascii_ofList _
    rw [List.length_append, List.length_append, hstart, hend]
    omega
  unfold deleteMessage
  dsimp only
  rw [hresponse]
  split
  · rw [if_neg (by omega), closing_of_not (by omega)]
    exact .nothing (keeps_refused ..)
  · rw [closing_of (by omega)]
    change Tells _ _ _ (finish x (sampleLatency x (if (deletedEvent messageId).data.length < 128 then _
      else _))) _ _
    split
    · exact .event _ htenant (keeps_sendResponse w ..) (keeps_sampleLatency _).finish
    · exact .nothing ((keeps_sendResponse w ..).trans (keeps_sampleLatency _)).finish

theorem tells_serveMessage (messageId : List UInt8) (w : World) :
    Tells x rq.ctx.tenantId w (serveMessage h x rq messageId w)
      (if passesAs h x w.gateway .messages messageId rq.ctx then messageEvent h rq messageId else none)
      (closing (passesAs h x w.gateway .messages messageId rq.ctx ∧
        (rq.method = ascii "PUT" ∨ messageId.length < 220))) := by
  unfold serveMessage
  by_cases hid : messageId = []
  · rw [if_pos hid, if_neg fun hpasses => hpasses.1 hid, closing_of_not fun hends => hends.1.1 hid]
    exact .nothing (keeps_refused ..)
  · rw [if_neg hid]
    by_cases htenant : rq.ctx.tenantId = []
    · rw [if_pos htenant, if_neg fun hpasses => hpasses.2.1 htenant, closing_of_not fun hends => hends.1.2.1 htenant]
      exact .nothing (keeps_refused ..)
    · rw [if_neg htenant]
      split
      · next w' hcheck =>
          have hpasses : passesAs h x w.gateway .messages messageId rq.ctx := ⟨hid, htenant, verdict_of_check hcheck⟩
          rw [if_pos hpasses, messageEvent]
          refine .after (keeps_of_check hcheck) ?_
          by_cases hput : rq.method = ascii "PUT"
          · rw [if_pos hput, if_pos hput, closing_of ⟨hpasses, .inl hput⟩]
            exact tells_putMessage htenant messageId w'
          · have hends : (passesAs h x w.gateway .messages messageId rq.ctx ∧
                (rq.method = ascii "PUT" ∨ messageId.length < 220)) ↔ messageId.length < 220 := by
              simp [hpasses, hput]
            rw [if_neg hput, if_neg hput]
            simp only [hends]
            exact tells_deleteMessage htenant messageId w'
      · next verdict w' hstopped hcheck =>
          have hlimited : ¬ passesAs h x w.gateway .messages messageId rq.ctx := fun hpasses =>
            hstopped ((verdict_of_check hcheck).symm.trans hpasses.2.2)
          rw [if_neg hlimited, closing_of_not fun hends => hlimited hends.1]
          exact .nothing (((keeps_of_check hcheck).trans (keeps_sendRateLimitError w' _)).trans
            (keeps_closeClient _))

theorem keeps_serveDecide (endpoint : RlEndpoint) (w : World) : ∃ ops, Keeps ops w (serveDecide h x rq endpoint w) := by
  have hserved : ∀ {w' : World}, Keeps [] w w' → ∃ ops, Keeps ops w (serveAdmitted h x rq w') := by
    intro w' hkeeps
    obtain ⟨ops, hdecide⟩ : ∃ ops, Keeps ops w' (handleDecide h x rq.body rq.ctx w') := keeps_handleDecide rq.body
    exact ⟨_, (hkeeps.trans hdecide).trans (keeps_sampleRequest _).finish⟩
  unfold serveDecide
  split
  · exact ⟨_, keeps_refused ..⟩
  · split
    · exact ⟨_, keeps_refused ..⟩
    · split
      · split
        · next w' hcheck =>
            have hcounted : Keeps [] w' (w'.update countDecidePost) := .of_silent rfl rfl rfl
            exact hserved ((keeps_of_check hcheck).trans hcounted)
        · next w' hcheck =>
            exact ⟨_, ((keeps_of_check hcheck).trans (keeps_sendRateLimitError w' _)).finish⟩
        · next w' hcheck =>
            exact ⟨_, ((keeps_of_check hcheck).trans (keeps_sendErrorResponse w' ..)).finish⟩
      · split
        · next w' hcheck => exact hserved (keeps_of_check hcheck)
        · next w' _ hcheck =>
            exact ⟨_, ((keeps_of_check hcheck).trans (keeps_sendRateLimitError w' _)).finish⟩

/-- The rest of a path of the policies route names a tenant and a policy. -/
def namesPolicy (rest : List UInt8) : Bool :=
  (splitFirst (ascii "/complexity") rest).any fun parts =>
    (complexityTarget parts.1).1 != [] && (complexityTarget parts.1).2 != []

theorem keeps_servePolicies (rest : List UInt8) (w : World) :
    Keeps (closing (namesPolicy rest = true)) w (servePolicies h x rq rest w) := by
  unfold servePolicies namesPolicy
  cases splitFirst (ascii "/complexity") rest with
  | none => exact keeps_refused ..
  | some parts =>
    dsimp only
    by_cases hnamed : (complexityTarget parts.1).1 ≠ [] ∧ (complexityTarget parts.1).2 ≠ []
    · rw [if_pos hnamed, closing_of (by simpa using hnamed)]
      exact (keeps_handlePipelineComplexity w ..).finish_sampleRequest
    · rw [if_neg hnamed, closing_of_not (by simpa using hnamed)]
      exact keeps_refused ..

/-- The registry branch leaves the subscribers alone. -/
theorem leaves_serveRegistry (rest : List UInt8) (w : World) :
    Leaves (closing ((47 : UInt8) ∈ rest)) w (serveRegistry h x rq rest w) := by
  have hdelete : ∀ type version w, Leaves [] w (handleRegistryDelete x type version w) := by
    intro type version w
    unfold handleRegistryDelete
    split
    · exact (keeps_sendErrorResponse w ..).leaves
    · exact .of_effect rfl rfl trivial rfl
  have hwrite : ∀ type version body w, Leaves [] w (handleRegistryWriteCommon h x type version body w) := by
    intro type version body w
    unfold handleRegistryWriteCommon
    split
    · exact (keeps_sendErrorResponse w ..).leaves
    · split
      · exact (keeps_sendErrorResponse w ..).leaves
      · split
        · exact (keeps_sendErrorResponse w ..).leaves
        · split
          · exact (keeps_sendErrorResponse w ..).leaves
          · exact .of_effect rfl rfl trivial rfl
  have hslash : (47 : UInt8) ∈ rest ↔ rest.dropWhile (· != 47) ≠ [] := by
    rw [Ne, List.dropWhile_eq_nil_iff]
    simp
  unfold serveRegistry
  dsimp only
  cases hrest : rest.dropWhile (· != 47) with
  | nil =>
    rw [closing_of_not fun hmem => hslash.mp hmem hrest]
    exact (((keeps_sendErrorResponse w ..).trans (keeps_sampleLatency _)).trans (keeps_closeClient _)).leaves
  | cons slash version =>
    rw [closing_of (hslash.mpr (by rw [hrest]; nofun))]
    dsimp only
    split
    · exact ((keeps_sendErrorResponse w ..).trans (keeps_sampleLatency _)).finish.leaves
    · split
      · next w' hcheck =>
          have hend : ∀ w, Leaves [.stop .http] w (finish x (sampleLatency x w)) :=
            fun w => (keeps_sampleLatency w).finish.leaves
          split
          · exact ((keeps_of_check hcheck).leaves.trans (hdelete ..)).trans (hend _)
          · exact ((keeps_of_check hcheck).leaves.trans (hwrite ..)).trans (hend _)
      · next w' _ hcheck =>
          exact ((keeps_of_check hcheck).trans (keeps_sendRateLimitError w' _)).finish.leaves

/-- A subscription leaves the registry alone. -/
theorem registry_serveStream (w : World) : (serveStream x rq w).gateway.registry = w.gateway.registry := by
  unfold serveStream
  split
  · rfl
  · rfl
  · next tenant _ _ =>
      have hregister := frame_sseRegisterClient (x := x) registry_setSseSlot w tenant
      split
      · next w' heq =>
          rw [heq] at hregister
          exact hregister
      · next w' heq =>
          rw [heq] at hregister
          exact hregister

/-- The request is for the registry. -/
def Route.isRegistry : Route → Bool
  | .registry _ => true
  | _ => false

/-- **What a request tells the subscribers.** A request that is neither for the registry nor a subscription
leaves the registry alone and tells the subscribers of its own tenant what it announces. -/
theorem serve_tells (hregistry : (routeOf rq.method rq.path).isRegistry = false)
    (hstream : routeOf rq.method rq.path ≠ .stream) (w : World) :
    ∃ ops, Tells x rq.ctx.tenantId w (serve h x rq w) (announced h x w.gateway rq) ops := by
  unfold serve announced
  cases hroute : routeOf rq.method rq.path with
  | registry rest => exact absurd (hroute ▸ hregistry) nofun
  | stream => exact absurd hroute hstream
  | getDecision messageId => exact ⟨_, tells_serveGetDecision messageId w⟩
  | message messageId => exact ⟨_, tells_serveMessage messageId w⟩
  | decide endpoint =>
    obtain ⟨ops, hkeeps⟩ := keeps_serveDecide (h := h) (x := x) endpoint w
    exact ⟨ops, .nothing hkeeps⟩
  | policies rest => exact ⟨_, .nothing (keeps_servePolicies rest w)⟩
  | health => exact ⟨_, .nothing (keeps_handleHealth w).finish_sampleRequest⟩
  | metricsJson => exact ⟨_, .nothing (keeps_handleMetricsJson w).finish_sampleRequest⟩
  | metrics => exact ⟨_, .nothing (keeps_handleMetricsRequest w).finish_sampleRequest⟩
  | extensionsHealth => exact ⟨_, .nothing (keeps_handleQuery w _).finish_sampleRequest⟩
  | circuitBreakers => exact ⟨_, .nothing (keeps_handleQuery w _).finish_sampleRequest⟩
  | dryRun => exact ⟨_, .nothing (keeps_handleDryRunPipeline w _).finish_sampleRequest⟩
  | unknown => exact ⟨_, .nothing (keeps_sendErrorResponse w ..).finish_sampleRequest⟩

end Branches

end CGateway
