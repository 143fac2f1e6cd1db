import CGateway.Lib.Slots
import CGateway.Http.Subscriptions

/-! # Announced messages

Where no write to a stream fails, every client that is registered under the tenant of a request is sent the
event that the request announces, once and in one piece of its stream. A message change that is answered with
status 200 is announced, except a deletion of a message whose id does not fit into the buffer for the event,
but into the one for the answer.

* `sentTo_sseBroadcastJson` — what one client is sent of a broadcast;
* `httpStep_sentTo`, `httpStep_sentTo_nothing` — what it is sent of a connection;
* `serveMessage_ok` — the message changes that are answered with status 200;
* `message_announced_iff` — which of them are announced;
* `event_frame_iff` — which events a subscriber decodes as they were announced. -/

namespace CGateway

open Bytes CString Machine EventStream

/-! ### One client -/

/-- What a slot is written goes to the descriptor of its client. -/
theorem sentTo_slotWrites (fd : ℕ) (tenantId event json : List UInt8) (client : SseClient) :
    sentTo fd (slotWrites tenantId event json (some client)) =
      if client.fd = fd ∧ client.tenantId = tenantId then eventPieces event json else [] := by
  rw [slotWrites]
  by_cases htenant : client.tenantId = tenantId
  · rw [if_pos htenant, sentTo, List.filterMap_map]
    by_cases hfd : client.fd = fd
    · rw [if_pos ⟨hfd, htenant⟩]
      have hread : Effect.sentTo? fd ∘ Effect.sseWrite client.fd = some := by
        funext bytes
        exact if_pos hfd
      rw [hread, List.filterMap_some]
    · rw [if_neg fun h => hfd h.1, List.filterMap_eq_nil_iff]
      exact fun bytes _ => if_neg hfd
  · rw [if_neg htenant, if_neg fun h => htenant h.2]
    rfl

/-- **What one client is sent of a broadcast.** -/
theorem sentTo_sseBroadcastJson {x : Exchange} (haccepts : ∀ fd n, x.sseAccepts fd n = true)
    {tenantId : List UInt8} (htenant : tenantId ≠ []) (event json : List UInt8) {w : World}
    (hdistinct : DistinctFds w.gateway.sseClients) {i : Fin 64} {client : SseClient}
    (hclient : w.gateway.sseClients i = some client) (hown : client.tenantId = tenantId) :
    sentTo client.fd (sseBroadcastJson x tenantId event json w).effects =
      sentTo client.fd w.effects ++ eventPieces event json := by
  have hothers : ∀ j ∈ List.finRange 64, j ≠ i →
      sentTo client.fd (slotWrites tenantId event json (w.gateway.sseClients j)) = [] := by
    intro j _ hj
    cases hother : w.gateway.sseClients j with
    | none => rfl
    | some other =>
      rw [sentTo_slotWrites, if_neg]
      rintro ⟨hfd, -⟩
      exact hj (hdistinct j i other client hother hclient hfd)
  rw [sseBroadcastJson_accepted haccepts htenant, sentTo, List.filterMap_append, List.filterMap_flatMap]
  refine congrArg (sentTo client.fd w.effects ++ ·) ?_
  refine (Slots.flatMap_eq_of_unique (List.nodup_finRange 64) (List.mem_finRange i) hothers).trans ?_
  rw [hclient, sentTo_slotWrites, if_pos ⟨rfl, hown⟩]

/-- A private effect is sent to nobody. -/
theorem Effect.IsPrivate.sentTo? {e : Effect} (he : e.IsPrivate) (fd : ℕ) : e.sentTo? fd = none := by
  cases e with
  | sseWrite fd' bytes => exact he.elim
  | _ => rfl

/-! ### One connection -/

/-- What is announced has one of three names. -/
theorem announced_name {h : Host} {x : Exchange} {g : Gateway} {rq : HttpRequest} {event : Event}
    (hannounced : announced h x g rq = some event) :
    event.name ∈ [ascii "message_created", ascii "message_updated", ascii "message_deleted"] := by
  have hdecision : ∀ messageId, decisionEvent h x rq.ctx messageId = some event →
      event.name = ascii "message_created" := by
    intro messageId hevent
    obtain ⟨reply, -, hreply⟩ := Option.bind_eq_some_iff.mp hevent
    rw [Option.ite_none_right_eq_some] at hreply
    rw [← Option.some.inj hreply.2]
  have hupdated : ∀ messageId, updatedEvent h rq messageId = some event → event.name = ascii "message_updated" := by
    intro messageId hevent
    obtain ⟨members, -, hmembers⟩ := Option.bind_eq_some_iff.mp hevent
    rw [Option.ite_none_left_eq_some] at hmembers
    rw [← Option.some.inj hmembers.2]
  have hdeleted : ∀ messageId, (if (deletedEvent messageId).data.length < 128 then
      some (deletedEvent messageId) else none) = some event → event.name = ascii "message_deleted" := by
    intro messageId hevent
    rw [Option.ite_none_right_eq_some] at hevent
    rw [← Option.some.inj hevent.2]
    rfl
  unfold announced at hannounced
  split at hannounced
  · rw [Option.ite_none_right_eq_some] at hannounced
    rw [hdecision _ hannounced.2]
    exact List.mem_cons_self
  · rw [Option.ite_none_right_eq_some, messageEvent] at hannounced
    obtain ⟨-, hevent⟩ := hannounced
    split at hevent
    · rw [hupdated _ hevent]
      exact List.mem_cons_of_mem _ List.mem_cons_self
    · rw [hdeleted _ hevent]
      exact List.mem_cons_of_mem _ (List.mem_cons_of_mem _ List.mem_cons_self)
  · cases hannounced

/-- Counting the request does not change what it announces. -/
theorem announced_countRequest {h : Host} {x : Exchange} {g : Gateway} {rq : HttpRequest} :
    announced h x (countRequest g) rq = announced h x g rq := by
  unfold announced
  simp only [passesAs_countRequest]

/-- The pieces of an event with a short name are the event. -/
theorem flatten_eventPieces {event : Event} (hname : event.name.length ≤ 119) :
    (eventPieces event.name event.data).flatten = encode event := by
  have hstart : (ascii "event: ").length = 7 := length_ascii_ofList _
  have hend : (ascii "\n").length = 1 := by decide
  have hline : (ascii "event: " ++ event.name ++ ascii "\n").length ≤ 127 := by
    rw [List.length_append, List.length_append, hstart, hend]
    omega
  rw [eventPieces, encode, List.take_of_length_le hline]
  simp only [List.flatten_cons, List.flatten_nil, List.append_assoc, List.append_nil]

section Connection

variable {h : Host} {x : Exchange} {g : Gateway} {rq : HttpRequest}
variable (hparse : parseRequest (firstRead x) = some rq)
include hparse

/-- What a request tells, from its first effect on. -/
theorem httpStep_tells (hregistry : (routeOf rq.method rq.path).isRegistry = false)
    (hstream : routeOf rq.method rq.path ≠ .stream) :
    ∃ ops, Tells x rq.ctx.tenantId ⟨countRequest g, [.spanStart .http]⟩
      ⟨(httpStep h g x).1, (httpStep h g x).2⟩ (announced h x g rq) ops := by
  have htells := serve_tells (h := h) (x := x) hregistry hstream ⟨countRequest g, [.spanStart .http]⟩
  rw [announced_countRequest] at htells
  rw [httpStep_of_parse hparse]
  exact htells

/-- **Every client of the tenant is sent what is announced**, and nothing else. -/
theorem httpStep_sentTo (haccepts : ∀ fd n, x.sseAccepts fd n = true) (hdistinct : DistinctFds g.sseClients)
    {event : Event} (hannounced : announced h x g rq = some event) {i : Fin 64} {client : SseClient}
    (hclient : g.sseClients i = some client) (hown : client.tenantId = rq.ctx.tenantId) :
    (sentTo client.fd (httpStep h g x).2).flatten = encode event := by
  have hroute : (routeOf rq.method rq.path).isRegistry = false ∧ routeOf rq.method rq.path ≠ .stream := by
    unfold announced at hannounced
    split at hannounced
    · next hroute => simp [hroute, Route.isRegistry]
    · next hroute => simp [hroute, Route.isRegistry]
    · cases hannounced
  obtain ⟨ops, htells⟩ := httpStep_tells (h := h) (g := g) hparse hroute.1 hroute.2
  rw [hannounced] at htells
  cases htells with
  | @event before _ _ htenant hbefore hafter =>
    have hshort : event.name.length ≤ 119 := by
      have hnames : ∀ name ∈ [ascii "message_created", ascii "message_updated", ascii "message_deleted"],
          name.length ≤ 119 := by decide
      exact hnames _ (announced_name hannounced)
    have hbefore' := hbefore.leaves.filterMap_eq _ fun e he => he.sentTo? client.fd
    have hafter' := hafter.leaves.filterMap_eq _ fun e he => he.sentTo? client.fd
    have hpool : before.gateway.sseClients = g.sseClients := hbefore.leaves.sseClients
    rw [← hpool] at hdistinct hclient
    have hsent := sentTo_sseBroadcastJson haccepts htenant event.name event.data hdistinct hclient hown
    have hquiet : sentTo client.fd before.effects = [] := hbefore'
    rw [hquiet, List.nil_append] at hsent
    rw [← flatten_eventPieces hshort, ← hsent]
    exact congrArg List.flatten hafter'

/-- A request that announces nothing sends nothing, unless it is a subscription. -/
theorem httpStep_sentTo_nothing (hregistry : (routeOf rq.method rq.path).isRegistry = false)
    (hstream : routeOf rq.method rq.path ≠ .stream) (hannounced : announced h x g rq = none) (fd : ℕ) :
    sentTo fd (httpStep h g x).2 = [] := by
  obtain ⟨ops, htells⟩ := httpStep_tells (h := h) (g := g) hparse hregistry hstream
  rw [hannounced] at htells
  cases htells with
  | nothing hkeeps => exact hkeeps.leaves.filterMap_eq _ fun e he => he.sentTo? fd

end Connection

/-! ### Message changes -/

/-- The change that a request asks for, as an event. -/
def changeOf (rq : HttpRequest) (messageId : List UInt8) : Event :=
  if rq.method = ascii "PUT" then ⟨ascii "message_updated", rq.body⟩ else deletedEvent messageId

/-- Nothing was answered with status 200. -/
def NoSuccess (w : World) : Prop := ∀ response ∈ responses w.effects, response.status ≠ .ok

section Answers

variable {h : Host} {x : Exchange} {ctx : RequestContext} {w w' : World}

/-- What answers nobody answers with no success. -/
theorem NoSuccess.of_responses (hw : NoSuccess w) (hsame : responses w'.effects = responses w.effects) :
    NoSuccess w' := by
  rw [NoSuccess, hsame]
  exact hw

/-- One more answer. -/
theorem NoSuccess.respond {response : Response} (hw : NoSuccess w) (hstatus : response.status ≠ .ok)
    (heffects : w'.effects = w.effects ++ [.respond response]) : NoSuccess w' := by
  have hone : responses [.respond response] = [response] := rfl
  rw [NoSuccess, heffects, responses_append, hone, List.forall_mem_append, List.forall_mem_singleton]
  exact ⟨hw, hstatus⟩

/-- A limit check answers nobody. -/
theorem NoSuccess.of_check (hw : NoSuccess w) {endpoint : RlEndpoint} {verdict : RlVerdict}
    (hcheck : rateLimitCheck h x endpoint (some ctx.tenantId) w = (verdict, w')) : NoSuccess w' := by
  obtain ⟨g', commands, hspec⟩ := rateLimitCheck_spec h x w endpoint (some ctx.tenantId)
  have heffects : w'.effects = w.effects ++ Effect.rateLimitCheck endpoint (some ctx.tenantId) :: commands.map .redis :=
    congrArg (fun outcome => outcome.2.effects) (hcheck.symm.trans hspec)
  have hnone : responses (Effect.rateLimitCheck endpoint (some ctx.tenantId) :: commands.map .redis) =
      [] := filterMap_redis Effect.response? (fun _ => rfl) commands
  refine hw.of_responses ?_
  rw [heffects, responses_append, hnone, List.append_nil]

/-- The end of a request answers nobody. -/
theorem NoSuccess.closed (hw : NoSuccess w) : NoSuccess (closeClient x w) :=
  hw.of_responses (by simp [closeClient, responses, Effect.response?])

theorem NoSuccess.finished (hw : NoSuccess w) : NoSuccess (finish x w) :=
  hw.of_responses (by simp [finish, closeClient, endSpan, responses, Effect.response?])

/-- An error is no success. -/
theorem NoSuccess.error (hw : NoSuccess w) {status : StatusLine} (hstatus : status ≠ .ok)
    (code message : String) : NoSuccess (sendErrorResponse status code message ctx w) := by
  have heffects : (sendErrorResponse status code message ctx w).effects =
      w.effects ++ [.respond (errorResponse status code message ctx)] := rfl
  exact hw.respond hstatus heffects

theorem NoSuccess.limitError (hw : NoSuccess w) (endpoint : RlEndpoint) :
    NoSuccess (sendRateLimitError h x endpoint ctx w) := by
  refine hw.respond ?_ (effects_sendRateLimitError h x ctx w endpoint)
  rw [status_limitErrorResponse]
  nofun

end Answers

section Message

variable {h : Host} {x : Exchange} {rq : HttpRequest} {messageId : List UInt8} {w : World}

/-- A body that is refused is not answered with status 200. -/
theorem noSuccess_putMessage (hw : NoSuccess w) (hrefused : updatedEvent h rq messageId = none) :
    NoSuccess (putMessage h x rq messageId w) := by
  unfold putMessage
  by_cases hbody : rq.body = []
  · rw [if_pos hbody]
    exact (hw.error (by decide) _ _).finished
  · rw [if_neg hbody]
    unfold updatedEvent at hrefused
    cases hobject : Json.asObject (h.jsonLoads rq.body) with
    | none => exact (hw.error (by decide) _ _).finished
    | some members =>
      rw [hobject, Option.bind_some, ite_eq_left_iff] at hrefused
      dsimp only
      by_cases hmismatch : messageIdMismatch members messageId = true
      · rw [if_pos hmismatch]
        exact (hw.error (by decide) _ _).finished
      · exact absurd (hrefused (not_or.mpr ⟨hbody, hmismatch⟩)) nofun

/-- **The message changes that are answered with status 200** have passed all checks, and the body of a change
is accepted. -/
theorem serveMessage_ok (hw : NoSuccess w) (hok : ¬ NoSuccess (serveMessage h x rq messageId w)) :
    passesAs h x w.gateway .messages messageId rq.ctx ∧
      (rq.method = ascii "PUT" → updatedEvent h rq messageId = some ⟨ascii "message_updated", rq.body⟩) := by
  unfold serveMessage at hok
  by_cases hid : messageId = []
  · rw [if_pos hid] at hok
    exact absurd (hw.error (by decide) _ _).closed hok
  · rw [if_neg hid] at hok
    by_cases htenant : rq.ctx.tenantId = []
    · rw [if_pos htenant] at hok
      exact absurd (hw.error (by decide) _ _).closed hok
    · rw [if_neg htenant] at hok
      split at hok
      · next w' hcheck =>
          refine ⟨⟨hid, htenant, verdict_of_check hcheck⟩, fun hput => ?_⟩
          rw [if_pos hput] at hok
          cases hevent : updatedEvent h rq messageId with
          | none => exact absurd (noSuccess_putMessage (hw.of_check hcheck) hevent) hok
          | some event =>
            obtain ⟨members, -, hmembers⟩ := Option.bind_eq_some_iff.mp hevent
            rw [Option.ite_none_left_eq_some] at hmembers
            rw [hmembers.2]
      · next hcheck => exact absurd ((hw.of_check hcheck).limitError _).closed hok

end Message

/-- **Announced changes.** In every run from a gateway without subscribers, a message change that is answered
with status 200 is sent, as one event, to every client that is registered under its tenant, if and only if it
is not the deletion of a message with an id of 111 bytes or more, or nobody is registered. -/
theorem message_announced_iff (h : Host) (g₀ : Gateway) (hempty : ∀ i, g₀.sseClients i = none)
    (past : List HttpRecord) (g : Gateway) (run : Run (httpStep h) g₀ past g)
    (hfresh : ∀ r ∈ past, FreshDescriptor r) (r : HttpRecord) (earlier : List HttpRecord)
    (hsuffix : r :: earlier <:+ past) (haccepts : ∀ fd n, r.input.sseAccepts fd n = true)
    (rq : HttpRequest) (hparse : parseRequest (firstRead r.input) = some rq) (messageId : List UInt8)
    (hroute : routeOf rq.method rq.path = .message messageId)
    (hok : ∃ response ∈ responses r.output, response.status = .ok) :
    (∀ i client, r.before.sseClients i = some client → client.tenantId = rq.ctx.tenantId →
        (sentTo client.fd r.output).flatten = encode (changeOf rq messageId)) ↔
      (rq.method ≠ ascii "PUT" → 111 ≤ messageId.length →
        ∀ i client, r.before.sseClients i = some client → client.tenantId ≠ rq.ctx.tenantId) := by
  obtain ⟨hrecord, -, hdistinct⟩ := pool_before hempty run hfresh hsuffix
  have houtput : r.output = (httpStep h r.before r.input).2 := congrArg Record.output hrecord
  rw [houtput] at hok ⊢
  have hchecked : passesAs h r.input r.before .messages messageId rq.ctx ∧
      (rq.method = ascii "PUT" →
        updatedEvent h rq messageId = some ⟨ascii "message_updated", rq.body⟩) := by
    have hserved : ¬ NoSuccess (serveMessage h r.input rq messageId
        ⟨countRequest r.before, [.spanStart .http]⟩) := by
      rw [httpStep_of_parse hparse, serve, hroute] at hok
      obtain ⟨response, hmem, hstatus⟩ := hok
      exact fun hnone => hnone response hmem hstatus
    obtain ⟨⟨hid, htenant, hverdict⟩, hput⟩ := serveMessage_ok (fun _ hmem => by cases hmem) hserved
    exact ⟨⟨hid, htenant, limitVerdict_countRequest (h := h) _ _ ▸ hverdict⟩, hput⟩
  have hannounced : announced h r.input r.before rq = messageEvent h rq messageId := by
    rw [announced, hroute]
    exact if_pos hchecked.1
  have hdata : (deletedEvent messageId).data.length = messageId.length + 17 := length_deletedEvent messageId
  constructor
  · -- a deletion that is not announced is sent to nobody
    intro hall hmethod hlong i client hclient hown
    have hnone : announced h r.input r.before rq = none := by
      rw [hannounced, messageEvent, if_neg hmethod, if_neg (by omega)]
    have hsent := hall i client hclient hown
    rw [httpStep_sentTo_nothing hparse (by rw [hroute]; rfl) (by rw [hroute]; intro h; cases h) hnone] at hsent
    exact encode_ne_nil _ hsent.symm
  · intro hshort i client hclient hown
    refine httpStep_sentTo hparse haccepts hdistinct ?_ hclient hown
    rw [hannounced, messageEvent, changeOf]
    by_cases hput : rq.method = ascii "PUT"
    · rw [if_pos hput, if_pos hput]
      exact hchecked.2 hput
    · rw [if_neg hput, if_neg hput]
      refine if_pos ?_
      by_contra hlong
      exact hshort hput (by omega) i client hclient hown

/-- How the gateway reads a change of the message. -/
theorem parseRequest_puttingMessage : parseRequest (firstRead (puttingMessage (ascii "acme") (ascii "\x7b\x7d"))) =
    some ⟨ascii "PUT", ascii "/api/v1/messages/m1", { tenantId := ascii "acme" }, true, false, ascii "\x7b\x7d"⟩ := by
  decide

/-- A change of a message is announced. -/
theorem message_announced_put :
    let first := recordOf (httpStep messageHost) (Gateway.atStart 900) (subscribing (ascii "acme"))
    let second := recordOf (httpStep messageHost) first.after
      (puttingMessage (ascii "acme") (ascii "\x7b\x7d"))
    (sentTo 8 second.output).flatten = encode ⟨ascii "message_updated", ascii "\x7b\x7d"⟩ := by
  intro first second
  have hrun := run_exec (httpStep messageHost) (Gateway.atStart 900)
    [subscribing (ascii "acme"), puttingMessage (ascii "acme") (ascii "\x7b\x7d")]
  have hfresh : ∀ r ∈ [second, first], FreshDescriptor r :=
    freshDescriptor_pair (fun _ => rfl) messageHost (by decide)
  have hiff := message_announced_iff messageHost (Gateway.atStart 900) (fun _ => rfl) _ _ hrun hfresh second
    [first] (List.suffix_refl _) (fun _ _ => rfl) _ parseRequest_puttingMessage (ascii "m1") (by decide)
    (by decide +kernel)
  exact hiff.mpr (fun hmethod => absurd rfl hmethod) 0 ⟨8, ascii "acme", 1000⟩ (by decide) rfl

/-- A deletion of this message, on descriptor 7. -/
def deletingMessage (tenantId messageId : List UInt8) : Exchange :=
  .delivering (ascii "DELETE /api/v1/messages/" ++ messageId ++ ascii " HTTP/1.1\r\nX-Tenant-ID: " ++
    tenantId ++ ascii "\r\n\r\n") none

/-- **A deletion that is not announced**, of a message with an id of 111 bytes. -/
theorem message_deleted_unannounced :
    let first := recordOf (httpStep messageHost) (Gateway.atStart 900) (subscribing (ascii "acme"))
    let second := recordOf (httpStep messageHost) first.after
      (deletingMessage (ascii "acme") (List.replicate 111 109))
    (responses second.output).map Response.status = [.ok] ∧
      second.before.sseClients 0 = some ⟨8, ascii "acme", 1000⟩ ∧ sentTo 8 second.output = [] := by
  decide +kernel

/-! ### Decoded by a subscriber -/

/-- **Faithful frames.** In every run from a gateway without subscribers, what a client is sent of an announced
event is decoded as this event alone if and only if the text of the event has no end of a line. Then what is
sent afterwards is decoded on its own. -/
theorem event_frame_iff (h : Host) (g₀ : Gateway) (hempty : ∀ i, g₀.sseClients i = none)
    (past : List HttpRecord) (g : Gateway) (run : Run (httpStep h) g₀ past g)
    (hfresh : ∀ r ∈ past, FreshDescriptor r) (r : HttpRecord) (earlier : List HttpRecord)
    (hsuffix : r :: earlier <:+ past) (haccepts : ∀ fd n, r.input.sseAccepts fd n = true)
    (rq : HttpRequest) (hparse : parseRequest (firstRead r.input) = some rq) (event : Event)
    (hannounced : announced h r.input r.before rq = some event) (i : Fin 64) (client : SseClient)
    (hclient : r.before.sseClients i = some client) (hown : client.tenantId = rq.ctx.tenantId) :
    (decode (sentTo client.fd r.output).flatten = [event] ↔ OneLine event.data) ∧
      (OneLine event.data →
        ∀ rest, decode ((sentTo client.fd r.output).flatten ++ rest) = event :: decode rest) := by
  obtain ⟨hrecord, -, hdistinct⟩ := pool_before hempty run hfresh hsuffix
  have houtput : r.output = (httpStep h r.before r.input).2 := congrArg Record.output hrecord
  have hname : event.name ≠ [] ∧ OneLine event.name := by
    have hnames : ∀ name ∈ [ascii "message_created", ascii "message_updated", ascii "message_deleted"],
        name ≠ [] ∧ (10 : UInt8) ∉ name ∧ (13 : UInt8) ∉ name := by decide
    exact hnames _ (announced_name hannounced)
  rw [houtput, httpStep_sentTo hparse haccepts hdistinct hannounced hclient hown]
  exact ⟨decode_encode_iff hname.1 hname.2, decode_encode_append hname.1 hname.2⟩

/-- A host that reads the empty object, with or without a line end in it. -/
def objectHost : Host :=
  .ofTables [] [(ascii "\x7b\x7d", .object []), (ascii "\x7b\n\x7d", .object [])]

/-- A change of a message with a body of one line. -/
theorem event_frame_one_line :
    let first := recordOf (httpStep objectHost) (Gateway.atStart 900) (subscribing (ascii "acme"))
    let second := recordOf (httpStep objectHost) first.after
      (puttingMessage (ascii "acme") (ascii "\x7b\x7d"))
    decode (sentTo 8 second.output).flatten = [⟨ascii "message_updated", ascii "\x7b\x7d"⟩] := by
  intro first second
  have hrun := run_exec (httpStep objectHost) (Gateway.atStart 900)
    [subscribing (ascii "acme"), puttingMessage (ascii "acme") (ascii "\x7b\x7d")]
  have hfresh : ∀ r ∈ [second, first], FreshDescriptor r :=
    freshDescriptor_pair (fun _ => rfl) objectHost (by decide)
  have hiff := event_frame_iff objectHost (Gateway.atStart 900) (fun _ => rfl) _ _ hrun hfresh second
    [first] (List.suffix_refl _) (fun _ _ => rfl) _ parseRequest_puttingMessage
    ⟨ascii "message_updated", ascii "\x7b\x7d"⟩ (by decide) 0 ⟨8, ascii "acme", 1000⟩ (by decide) rfl
  exact hiff.1.mpr ⟨by decide, by decide⟩

/-- **An event that is cut** at the line end in the accepted body. -/
theorem event_frame_cut :
    let first := recordOf (httpStep objectHost) (Gateway.atStart 900) (subscribing (ascii "acme"))
    let second := recordOf (httpStep objectHost) first.after
      (puttingMessage (ascii "acme") (ascii "\x7b\n\x7d"))
    (responses second.output).map (fun response => (response.status, response.body)) =
        [(.ok, ascii "\x7b\n\x7d")] ∧
      decode (sentTo 8 second.output).flatten = [⟨ascii "message_updated", ascii "\x7b"⟩] := by
  decide +kernel

end CGateway
