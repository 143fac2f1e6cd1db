import CGateway.Http.Broadcast
import CGateway.Http.DecidePath

/-! # What becomes of the Router's errors

Four handlers pass a reply of the Router on: `handle_decide`, `handle_get_decision`,
`handle_dry_run_pipeline` and `handle_pipeline_complexity`. One function turns the reply into a status
code, and a switch in each handler turns the code into a status line; a code that the switch does not
have becomes `200 OK`.

* `ForwardingCall` — a call of one of the handlers; `routerReplies` — the replies it obtained;
* `PassesOn` — a reply is passed on through a switch, shown for each handler;
* `Shows`, `queryStatusLine_shows`, `decideStatusLine_shows` — the error codes that survive a switch. -/

namespace CGateway

open Bytes CString Json

/-- A call of a handler that passes a reply of the Router on. -/
inductive ForwardingCall where
  | decide (body : List UInt8) (ctx : RequestContext)
  | getDecision (messageId : List UInt8) (ctx : RequestContext)
  | dryRunPipeline (body : List UInt8) (ctx : RequestContext)
  | pipelineComplexity (tenantId policyId : List UInt8) (ctx : RequestContext)

/-- The effects of a call. -/
def ForwardingCall.effects (h : Host) (x : Exchange) (g : Gateway) : ForwardingCall → List Effect
  | decide body ctx => (handleDecide h x body ctx ⟨g, []⟩).effects
  | getDecision messageId ctx => (handleGetDecision h x messageId ctx ⟨g, []⟩).effects
  | dryRunPipeline body ctx => (handleDryRunPipeline h x body ctx ⟨g, []⟩).effects
  | pipelineComplexity tenantId policyId ctx =>
      (handlePipelineComplexity h x tenantId policyId ctx ⟨g, []⟩).effects

/-- The reply of the Router to an effect that asks it. -/
def Effect.reply? (x : Exchange) : Effect → Option (List UInt8)
  | .natsDecide _ text => x.natsDecide text
  | .natsQuery query => x.natsQuery query
  | _ => none

/-- The replies of the Router that were obtained. -/
def routerReplies (x : Exchange) (effects : List Effect) : List (List UInt8) :=
  effects.filterMap (Effect.reply? x)

/-- The effect is a write to an event subscriber. -/
def Effect.isSseWrite : Effect → Bool
  | .sseWrite _ _ => true
  | _ => false

/-- A write to a subscriber, or the end of one that does not take it. -/
def Effect.isBroadcast : Effect → Bool
  | .sseWrite _ _ => true
  | .close _ => true
  | _ => false

/-- Something is broadcast. -/
def broadcasts (effects : List Effect) : Bool := effects.any Effect.isSseWrite

/-- **Errors are reported.** For a reply with this content there is one response; for an error its
status is 4xx or 5xx and nothing is broadcast, and a status found by `map_router_error_status` is the
one that is sent. -/
def ErrorsReported (h : Host) (resp : List UInt8) (effects : List Effect) : Prop :=
  ∃ r : Response, responses effects = [r] ∧
    (isRouterError h.jsonLoads resp = true → 400 ≤ r.status.code ∧ r.status.code < 600) ∧
    (mapRouterErrorStatus h.jsonLoads resp ≠ 0 → r.status.code = mapRouterErrorStatus h.jsonLoads resp) ∧
    (isRouterError h.jsonLoads resp = true → broadcasts effects = false)

/-! ### Broadcasting -/

section Broadcast

variable (x : Exchange)

/-- Between two worlds nothing is done but broadcasting. -/
def OnlyBroadcast (w w' : World) : Prop :=
  ∃ rest, w'.effects = w.effects ++ rest ∧ ∀ e ∈ rest, e.isBroadcast = true

/-- A broadcast does nothing but broadcast. -/
theorem sseBroadcastJson_onlyBroadcast {tenantId : List UInt8} (htenant : tenantId ≠ []) (event json : List UInt8)
    (w : World) : OnlyBroadcast w (sseBroadcastJson x tenantId event json w) := by
  obtain ⟨rest, hrest, htold⟩ := (sseBroadcastJson_announces (x := x) htenant event json w).effects
  refine ⟨rest, hrest, fun e he => ?_⟩
  have hone := htold e he
  cases e with
  | sseWrite fd bytes => rfl
  | close fd => rfl
  | _ => exact hone.elim

end Broadcast

/-! ### The handlers -/

/-- A reply is passed on through a switch: there is one response, with the status line of the switch,
and a broadcast only with a success. -/
def PassesOn (h : Host) (line : ℕ → StatusLine) (resp : List UInt8) (effects : List Effect) : Prop :=
  ∃ r : Response, responses effects = [r] ∧
    r.status = line (mapRouterErrorStatus h.jsonLoads resp) ∧
    (broadcasts effects = true → r.status = .ok)

section Handlers

variable {h : Host} {x : Exchange} {g : Gateway} {ctx : RequestContext} {reply : List UInt8}

@[simp] theorem routerReplies_append (a b : List Effect) :
    routerReplies x (a ++ b) = routerReplies x a ++ routerReplies x b := List.filterMap_append

@[simp] theorem broadcasts_append (a b : List Effect) :
    broadcasts (a ++ b) = (broadcasts a || broadcasts b) := List.any_append

/-- Broadcasting obtains no reply and answers nobody. -/
theorem OnlyBroadcast.silent {w w' : World} (hb : OnlyBroadcast w w') :
    ∃ rest, w'.effects = w.effects ++ rest ∧ responses rest = [] ∧ routerReplies x rest = [] := by
  obtain ⟨rest, heq, hall⟩ := hb
  -- Neither reading sees a write to a subscriber or the end of one.
  have hneither : ∀ e ∈ rest, e.response? = none ∧ e.reply? x = none := by
    intro e he
    have hbroadcast := hall e he
    cases e with
    | sseWrite fd bytes => exact ⟨rfl, rfl⟩
    | close fd => exact ⟨rfl, rfl⟩
    | _ => cases hbroadcast
  exact ⟨rest, heq, List.filterMap_eq_nil_iff.mpr fun e he => (hneither e he).1,
    List.filterMap_eq_nil_iff.mpr fun e he => (hneither e he).2⟩

/-- The answer of the Router is passed on through the switch of `handle_decide`. -/
theorem ForwardEnds.passesOn {body : List UInt8} {rest : List Effect}
    (hends : ForwardEnds h x body ctx rest) (hreply : reply ∈ routerReplies x rest) :
    PassesOn h decideStatusLine (respBuf reply) rest := by
  -- Only the last way obtains a reply.
  cases hends with
  | invalid hdto => simp [routerReplies, Effect.reply?] at hreply
  | unbuildable hdto hbuild => simp [routerReplies, Effect.reply?] at hreply
  | unavailable hdto hbuild hnats =>
    simp [routerReplies, Effect.reply?, routerCall, hnats] at hreply
  | @answered ctx' route text reply' r hdto hbuild hnats hstatus =>
    have hsame : reply' = reply := by
      simpa [routerReplies, Effect.reply?, routerCall, hnats] using hreply
    rw [← hsame]
    exact ⟨r, rfl, hstatus, fun hsent => by cases hsent⟩

/-- The abuse step obtains no reply and broadcasts nothing. -/
theorem tracking_silent (x : Exchange) (ctx : RequestContext) (event : AbuseEventType) :
    routerReplies x (tracking ctx event) = [] ∧ broadcasts (tracking ctx event) = false := by
  unfold tracking
  split <;> exact ⟨rfl, rfl⟩

/-- `handle_decide` passes a reply on through its own switch. -/
theorem handleDecide_passesOn {body : List UInt8}
    (hreply : reply ∈ routerReplies x (handleDecide h x body ctx ⟨g, []⟩).effects) :
    PassesOn h decideStatusLine (respBuf reply) (handleDecide h x body ctx ⟨g, []⟩).effects := by
  obtain ⟨rest, heq, hends⟩ := handleDecide_ends h x body ctx ⟨g, []⟩
  rw [heq] at hreply ⊢
  cases hends with
  | empty hbody => simp [routerReplies, Effect.reply?] at hreply
  | overloaded hbody hactive hstatus => simp [routerReplies, Effect.reply?] at hreply
  | denied hbody hactive hdeny => simp [routerReplies, Effect.reply?] at hreply
  | @forwarded rest hbody hactive hdeny event hends =>
    obtain ⟨hnoReply, hnoBroadcast⟩ := tracking_silent x ctx event
    have hrest : reply ∈ routerReplies x rest := by
      change reply ∈ routerReplies x (tracking ctx event ++ rest) at hreply
      rwa [routerReplies_append, hnoReply] at hreply
    obtain ⟨r, hr, hstatus, hok⟩ := hends.passesOn hrest
    refine ⟨r, ?_, hstatus, fun hb => hok ?_⟩
    · change responses (tracking ctx event ++ rest) = [r]
      rw [responses_append, responses_tracking, hr, List.nil_append]
    · change broadcasts (tracking ctx event ++ rest) = true at hb
      rwa [broadcasts_append, hnoBroadcast, Bool.false_or] at hb

/-- A mapped query passes its reply on through the common switch. -/
theorem handleMappedQuery_passesOn {query : RouterQuery}
    (hreply : reply ∈ routerReplies x (handleMappedQuery h x query ctx ⟨g, []⟩).effects) :
    PassesOn h queryStatusLine (respBuf reply)
      (handleMappedQuery h x query ctx ⟨g, []⟩).effects := by
  unfold handleMappedQuery at hreply ⊢
  cases hnats : x.natsQuery query with
  | none => simp [hnats, routerReplies, Effect.reply?, sendErrorResponse, sendResponse] at hreply
  | some reply' =>
    have hsame : reply = reply' := by
      simpa [hnats, routerReplies, Effect.reply?, sendResponse] using hreply
    rw [hsame]
    exact ⟨_, rfl, rfl, fun hsent => by cases hsent⟩

theorem handleDryRunPipeline_passesOn {body : List UInt8}
    (hreply : reply ∈ routerReplies x (handleDryRunPipeline h x body ctx ⟨g, []⟩).effects) :
    PassesOn h queryStatusLine (respBuf reply)
      (handleDryRunPipeline h x body ctx ⟨g, []⟩).effects := by
  unfold handleDryRunPipeline at hreply ⊢
  by_cases hbody : body = []
  · rw [if_pos hbody] at hreply
    simp [routerReplies, Effect.reply?, sendErrorResponse, sendResponse] at hreply
  · rw [if_neg hbody] at hreply ⊢
    exact handleMappedQuery_passesOn hreply

theorem handlePipelineComplexity_passesOn {tenantId policyId : List UInt8}
    (hreply : reply ∈ routerReplies x (handlePipelineComplexity h x tenantId policyId ctx ⟨g, []⟩).effects) :
    PassesOn h queryStatusLine (respBuf reply)
      (handlePipelineComplexity h x tenantId policyId ctx ⟨g, []⟩).effects := by
  unfold handlePipelineComplexity at hreply ⊢
  by_cases htarget : tenantId = [] ∨ policyId = []
  · rw [if_pos htarget] at hreply
    simp [routerReplies, Effect.reply?, sendErrorResponse, sendResponse] at hreply
  · rw [if_neg htarget] at hreply ⊢
    exact handleMappedQuery_passesOn hreply

/-- `handle_get_decision` passes its reply on through the common switch, and broadcasts a success. -/
theorem handleGetDecision_passesOn {messageId : List UInt8}
    (hreply : reply ∈ routerReplies x (handleGetDecision h x messageId ctx ⟨g, []⟩).effects) :
    PassesOn h queryStatusLine (respBuf reply)
      (handleGetDecision h x messageId ctx ⟨g, []⟩).effects := by
  unfold handleGetDecision at hreply ⊢
  by_cases hid : messageId = []
  · rw [if_pos hid] at hreply
    simp [routerReplies, Effect.reply?, sendErrorResponse, sendResponse] at hreply
  by_cases htenant : ctx.tenantId = []
  · rw [if_neg hid, if_pos htenant] at hreply
    simp [routerReplies, Effect.reply?, sendErrorResponse, sendResponse] at hreply
  rw [if_neg hid, if_neg htenant] at hreply ⊢
  dsimp only at hreply ⊢
  cases hnats : x.natsQuery (.getDecision ctx.tenantId messageId) with
  | none => simp [hnats, routerReplies, Effect.reply?, sendErrorResponse, sendResponse] at hreply
  | some reply' =>
    rw [hnats] at hreply
    dsimp only at hreply ⊢
    -- `w` is the world in which the reply has been answered and not yet broadcast.
    set status := queryStatusLine (mapRouterErrorStatus h.jsonLoads (respBuf reply')) with hstatus
    set w := sendResponse status (respBuf reply')
      ((⟨g, []⟩ : World).emit (.natsQuery (.getDecision ctx.tenantId messageId))) with hw
    have hsent : responses w.effects =
        [⟨status, responseHeaders "application/json" (respBuf reply').length, respBuf reply'⟩] := rfl
    have hasked : routerReplies x w.effects = [reply'] := by
      simp [hw, hnats, routerReplies, Effect.reply?, sendResponse]
    by_cases hok : status = .ok
    · rw [if_pos hok] at hreply ⊢
      -- A broadcast neither answers nor asks anybody.
      obtain ⟨rest, heffects, hnone, hnone'⟩ := (sseBroadcastJson_onlyBroadcast x htenant
        (ascii "message_created") (respBuf reply') w).silent (x := x)
      rw [heffects, routerReplies_append, hnone', hasked, List.append_nil, List.mem_singleton] at hreply
      rw [hreply, heffects]
      exact ⟨_, by rw [responses_append, hnone, hsent, List.append_nil], hstatus, fun _ => hok⟩
    · rw [if_neg hok] at hreply ⊢
      rw [hasked, List.mem_singleton] at hreply
      rw [hreply]
      exact ⟨_, hsent, hstatus, fun htold => by cases htold⟩

end Handlers

/-! ### The codes that survive a switch -/

/-- The error codes that the common switch shows. -/
def queryErrorCodes : List String :=
  ["invalid_request", "unauthorized", "policy_not_found", "extension_not_found",
   "post_processor_failed", "extension_error", "decision_failed", "internal"]

/-- The error codes that the switch of `handle_decide` shows. -/
def decideErrorCodes : List String := "extension_unavailable" :: queryErrorCodes

/-- The error codes that a call shows. -/
def ForwardingCall.errorCodes : ForwardingCall → List String
  | decide _ _ => decideErrorCodes
  | _ => queryErrorCodes

/-- A switch shows the statuses of these codes, and makes every other status of the table, and none, a
success. -/
def Shows (line : ℕ → StatusLine) (codes : List String) : Prop :=
  line 0 = .ok ∧ (∀ code ∈ codes, ∃ row ∈ routerErrorTable, ascii row.1 = ascii code) ∧
    ∀ row ∈ routerErrorTable,
      if ascii row.1 ∈ codes.map ascii then
        (line row.2).code = row.2 ∧ 400 ≤ row.2 ∧ row.2 < 600
      else line row.2 = .ok

theorem queryStatusLine_shows : Shows queryStatusLine queryErrorCodes := by
  unfold Shows
  decide

theorem decideStatusLine_shows : Shows decideStatusLine decideErrorCodes := by
  unfold Shows
  decide

/-- The status of a code is the one of its row, or zero. -/
theorem statusOfRouterCode_cases (code : List UInt8) :
    (∃ row ∈ routerErrorTable, ascii row.1 = code ∧ statusOfRouterCode code = row.2) ∨
      (∀ row ∈ routerErrorTable, ascii row.1 ≠ code) ∧ statusOfRouterCode code = 0 := by
  unfold statusOfRouterCode
  cases hfind : routerErrorTable.find? fun row => ascii row.1 == code with
  | none =>
    refine .inr ⟨fun row hrow => ?_, rfl⟩
    have hne := List.find?_eq_none.mp hfind row hrow
    simpa using hne
  | some row =>
    have hcode := List.find?_some hfind
    exact .inl ⟨row, List.mem_of_find?_eq_some hfind, by simpa using hcode, rfl⟩

section Codes

variable {h : Host} {line : ℕ → StatusLine} {codes : List String} {resp : List UInt8}
  {effects : List Effect}

/-- A code is shown, and then it is one of the codes, or it passes for a success. -/
theorem Shows.code_cases (hshows : Shows line codes) (code : List UInt8) :
    (code ∈ codes.map ascii ∧ (line (statusOfRouterCode code)).code = statusOfRouterCode code ∧
        400 ≤ statusOfRouterCode code ∧ statusOfRouterCode code < 600) ∨
      (code ∉ codes.map ascii ∧ line (statusOfRouterCode code) = .ok) := by
  obtain ⟨hzero, hsub, hrows⟩ := hshows
  rcases statusOfRouterCode_cases code with ⟨row, hrow, rfl, hstatus⟩ | ⟨hnone, hstatus⟩
  · rw [hstatus]
    have hthis := hrows row hrow
    split_ifs at hthis with hmem
    · exact .inl ⟨hmem, hthis⟩
    · exact .inr ⟨hmem, hthis⟩
  · refine .inr ⟨?_, by rw [hstatus, hzero]⟩
    intro hmem
    obtain ⟨c, hc, rfl⟩ := List.mem_map.mp hmem
    obtain ⟨row, hrow, heq⟩ := hsub c hc
    exact hnone row hrow heq

/-- A reply that is passed on through a switch is reported just when it is no error, or one whose code
the switch shows. -/
theorem PassesOn.errorsReported_iff (hpasses : PassesOn h line resp effects) (hshows : Shows line codes) :
    ErrorsReported h resp effects ↔ (isRouterError h.jsonLoads resp = true →
      ∃ code ∈ codes, routerErrorCode h.jsonLoads resp = some (ascii code)) := by
  obtain ⟨r, hr, hstatus, hok⟩ := hpasses
  constructor
  · rintro ⟨r', hr', hrefused, -, -⟩ herror
    obtain rfl : r = r' := by simpa [hr] using hr'
    -- A refusal has a status that the switch shows, hence a code.
    have hnotOk : r.status ≠ .ok := by
      intro hs
      have := (hrefused herror).1
      rw [hs] at this
      exact absurd this (by decide)
    rw [hstatus, mapRouterErrorStatus, if_pos herror] at hnotOk
    cases hcode : routerErrorCode h.jsonLoads resp with
    | none =>
      rw [hcode] at hnotOk
      exact absurd hshows.1 hnotOk
    | some code =>
      rw [hcode] at hnotOk
      rcases hshows.code_cases code with ⟨hmem, -⟩ | ⟨-, hline⟩
      · obtain ⟨c, hc, rfl⟩ := List.mem_map.mp hmem
        exact ⟨c, hc, rfl⟩
      · exact absurd hline hnotOk
  · intro hcodes
    by_cases herror : isRouterError h.jsonLoads resp = true
    · obtain ⟨code, hmem, hcode⟩ := hcodes herror
      have hmap : mapRouterErrorStatus h.jsonLoads resp = statusOfRouterCode (ascii code) := by
        rw [mapRouterErrorStatus, if_pos herror, hcode]
        rfl
      rcases hshows.code_cases (ascii code) with ⟨-, hline, hlow, hhigh⟩ | ⟨hnot, -⟩
      · rw [← hmap, ← hstatus] at hline
        rw [← hmap] at hlow hhigh
        refine ⟨r, hr, fun _ => ⟨by omega, by omega⟩, fun _ => hline, fun _ => ?_⟩
        -- A broadcast would come with a success.
        by_contra hbroadcast
        rw [hok (by simpa using hbroadcast)] at hline
        rw [← hline] at hlow
        exact absurd hlow (by decide)
      · exact absurd (List.mem_map_of_mem hmem) hnot
    · refine ⟨r, hr, fun h => absurd h herror, fun hne => ?_, fun h => absurd h herror⟩
      rw [mapRouterErrorStatus, if_neg herror] at hne
      exact absurd rfl hne

end Codes

section Calls

variable {h : Host} {x : Exchange} {g : Gateway} {reply : List UInt8}

/-- **Router errors, exactly.** A reply that a handler has obtained is reported as it should be if and
only if it is no error, or its `error.code` is one that the handler's switch shows. -/
theorem routerError_reported_iff (call : ForwardingCall) (hreply : reply ∈ routerReplies x (call.effects h x g)) :
    ErrorsReported h (respBuf reply) (call.effects h x g) ↔
      (isRouterError h.jsonLoads (respBuf reply) = true → ∃ code ∈ call.errorCodes,
        routerErrorCode h.jsonLoads (respBuf reply) = some (ascii code)) := by
  cases call with
  | decide body ctx =>
      exact (handleDecide_passesOn hreply).errorsReported_iff decideStatusLine_shows
  | getDecision messageId ctx =>
      exact (handleGetDecision_passesOn hreply).errorsReported_iff queryStatusLine_shows
  | dryRunPipeline body ctx =>
      exact (handleDryRunPipeline_passesOn hreply).errorsReported_iff queryStatusLine_shows
  | pipelineComplexity tenantId policyId ctx =>
      exact (handlePipelineComplexity_passesOn hreply).errorsReported_iff queryStatusLine_shows

end Calls

/-- A Router error with this code. -/
def errorReply (code : String) : Json :=
  .object [(ascii "ok", .bool false), (ascii "error", .object [(ascii "code", .string (ascii code))])]

/-- The text of a Router error. -/
def errorReplyText (code : String) : List UInt8 := (errorReply code).compact fun _ => ascii "0.0"

/-- A host that can read a Router error with this code. -/
def errorHost (code : String) : Host := .ofTables [] [(errorReplyText code, errorReply code)]

/-- A Router that answers every lookup with an error with this code. -/
def failingLookup (code : String) : Exchange :=
  { Exchange.delivering [] none with natsQuery := fun _ => some (errorReplyText code) }

/-- A gateway with one event subscriber, of the tenant `acme`. -/
def watchedGateway : Gateway :=
  setSseSlot 0 (some ⟨9, ascii "acme", 900⟩) (Gateway.atStart 900)

/-- A lookup of the tenant `acme`. -/
def sampleLookup : ForwardingCall := .getDecision (ascii "m1") { tenantId := ascii "acme" }

/-- **A timeout passes for a success.** The Router's `extension_timeout`, which
`map_router_error_status` turns into 504, is answered with `200 OK` and announced to the subscribers as
a new message. -/
theorem extensionTimeout_reported_as_success :
    (errorReplyText "extension_timeout" ∈ routerReplies (failingLookup "extension_timeout")
        (sampleLookup.effects (errorHost "extension_timeout") (failingLookup "extension_timeout") watchedGateway) ∧
      isRouterError (errorHost "extension_timeout").jsonLoads
        (respBuf (errorReplyText "extension_timeout")) = true ∧
      mapRouterErrorStatus (errorHost "extension_timeout").jsonLoads
        (respBuf (errorReplyText "extension_timeout")) = 504 ∧
      (responses (sampleLookup.effects (errorHost "extension_timeout")
        (failingLookup "extension_timeout") watchedGateway)).map (·.status.code) = [200] ∧
      broadcasts (sampleLookup.effects (errorHost "extension_timeout")
        (failingLookup "extension_timeout") watchedGateway) = true) ∧
    ¬ ErrorsReported (errorHost "extension_timeout") (respBuf (errorReplyText "extension_timeout"))
        (sampleLookup.effects (errorHost "extension_timeout") (failingLookup "extension_timeout")
          watchedGateway) := by
  refine ⟨by decide +kernel, ?_⟩
  rintro ⟨r, hr, -, -, hsilent⟩
  exact absurd (hsilent (by decide +kernel)) (by decide +kernel)

/-- A missing policy is reported. -/
theorem policyNotFound_reported :
    ErrorsReported (errorHost "policy_not_found") (respBuf (errorReplyText "policy_not_found"))
      (sampleLookup.effects (errorHost "policy_not_found") (failingLookup "policy_not_found") watchedGateway) :=
  (routerError_reported_iff sampleLookup (by decide)).mpr fun _ =>
    ⟨"policy_not_found", by decide, by decide⟩

end CGateway
