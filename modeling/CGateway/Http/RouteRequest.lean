import CGateway.Http.Gateway

/-! # From a request body to a RouteRequest, and from a Router reply to a status

The three functions of `http_server.c` that stand between the client's JSON and the Router's:
`validate_decide_request`, `build_route_request_json` and `map_router_error_status`. -/

namespace CGateway

open Bytes CString Json

/-! ### The decide request -/

/-- What `validate_decide_request` demands of the members of a body. -/
def isDecideRequest (members : Members) : Bool :=
  let task := lookup members (ascii "task")
  asString (lookup members (ascii "version")) == some (ascii "1") &&
    (asString (lookup members (ascii "tenant_id"))).isSome &&
    (asString (lookup members (ascii "request_id"))).isSome &&
    (asObject task).isSome &&
    (asString (task.bind (·.get? (ascii "type")))).isSome &&
    (asObject (task.bind (·.get? (ascii "payload")))).isSome

/-- `validate_decide_request`: the context with the ids of an accepted body, nothing for a refused one. -/
def validateDecideRequest (jsonLoads : List UInt8 → Option Json) (body : List UInt8)
    (ctx : RequestContext) : Option RequestContext :=
  match asObject (jsonLoads body) with
  | none => none
  | some members =>
      if isDecideRequest members then
        some { ctx with
          requestId := ((asString (lookup members (ascii "request_id"))).map (copyField 64)).getD
            ctx.requestId
          runId := ((asString (lookup members (ascii "run_id"))).map (copyField 64)).getD ctx.runId }
      else none

/-- A member of the body that is a string. -/
def stringMember (members : Members) (key : String) : Option Json :=
  (asString (lookup members (ascii key))).map .string

/-- A member of the body that is an object. -/
def objectMember (members : Members) (key : String) : Option Json :=
  (asObject (lookup members (ascii key))).map .object

/-- A value of the context if it is set, else the member of the body. -/
def preferContext (ctxValue : List UInt8) (members : Members) (key : String) : Option Json :=
  if ctxValue ≠ [] then ofBytes? ctxValue else stringMember members key

/-- The `message` member of a RouteRequest. -/
def messageObject (members : Members) : Json :=
  .object (collect [(ascii "message_id", stringMember members "message_id"),
     (ascii "message_type", stringMember members "message_type"),
     (ascii "payload", objectMember members "payload"),
     (ascii "metadata", objectMember members "metadata")])

/-- The RouteRequest object that is built from the members of a body. -/
def routeObject (ctx : RequestContext) (members : Members) : Json :=
  .object (collect [(ascii "version", stringMember members "version"),
     (ascii "tenant_id", preferContext ctx.tenantId members "tenant_id"),
     (ascii "request_id", stringMember members "request_id"),
     (ascii "trace_id", preferContext ctx.traceId members "trace_id"),
     (ascii "run_id", stringMember members "run_id"),
     (ascii "message", some (messageObject members)),
     (ascii "policy_id", stringMember members "policy_id"),
     (ascii "context", objectMember members "context")])

/-- `build_route_request_json`: the object and its text. A run id is saved to an empty context by
`validate_decide_request` already, from the same body. -/
def buildRouteRequestJson (h : Host) (body : List UInt8) (ctx : RequestContext) :
    Option (Json × List UInt8) :=
  match asObject (h.jsonLoads body) with
  | none => none
  | some members =>
      (h.jsonDumps (routeObject ctx members)).map fun text => (routeObject ctx members, text)

/-- The members of a body that `build_route_request_json` reads. -/
def routeKeys : List String :=
  ["version", "tenant_id", "request_id", "trace_id", "run_id", "message_id", "message_type", "payload",
   "metadata", "policy_id", "context"]

/-- The body is asked for the member of this name: for its tenant and its trace only if the context has none. -/
def LooksAt (ctx : RequestContext) (key : String) : Prop :=
  (key = "tenant_id" → ctx.tenantId = []) ∧ (key = "trace_id" → ctx.traceId = [])

/-- A RouteRequest depends on the members that the body is asked for, and on nothing else. -/
theorem routeObject_congr {m m' : Members} (ctx : RequestContext)
    (hsame : ∀ key ∈ routeKeys, LooksAt ctx key → lookup m' (ascii key) = lookup m (ascii key)) :
    routeObject ctx m' = routeObject ctx m := by
  have hplain : ∀ key ∈ routeKeys, key ≠ "tenant_id" → key ≠ "trace_id" →
      lookup m' (ascii key) = lookup m (ascii key) := by
    intro key hkey htenant htrace
    exact hsame key hkey ⟨fun h => absurd h htenant, fun h => absurd h htrace⟩
  have hstring : ∀ key ∈ ["version", "request_id", "run_id", "message_id", "message_type", "policy_id"],
      stringMember m' key = stringMember m key := by
    intro key hkey
    have hmem : key ∈ routeKeys ∧ key ≠ "tenant_id" ∧ key ≠ "trace_id" := by
      revert key
      decide
    rw [stringMember, stringMember, hplain key hmem.1 hmem.2.1 hmem.2.2]
  have hobject : ∀ key ∈ ["payload", "metadata", "context"], objectMember m' key = objectMember m key := by
    intro key hkey
    have hmem : key ∈ routeKeys ∧ key ≠ "tenant_id" ∧ key ≠ "trace_id" := by
      revert key
      decide
    rw [objectMember, objectMember, hplain key hmem.1 hmem.2.1 hmem.2.2]
  -- The body's own tenant and trace matter where the context has none.
  have hprefer : ∀ (value : List UInt8), ∀ key ∈ routeKeys, (value = [] → LooksAt ctx key) →
      preferContext value m' key = preferContext value m key := by
    intro value key hkey hlooks
    by_cases hvalue : value = []
    · rw [preferContext, preferContext, stringMember, stringMember, hsame key hkey (hlooks hvalue)]
    · rw [preferContext, preferContext, if_pos hvalue, if_pos hvalue]
  have htenant := hprefer ctx.tenantId "tenant_id" (by decide)
    fun h => ⟨fun _ => h, fun heq => absurd heq (by decide)⟩
  have htrace := hprefer ctx.traceId "trace_id" (by decide)
    fun h => ⟨fun heq => absurd heq (by decide), fun _ => h⟩
  have hmessage : messageObject m' = messageObject m := by
    unfold messageObject
    rw [hstring "message_id" (by decide), hstring "message_type" (by decide),
      hobject "payload" (by decide), hobject "metadata" (by decide)]
  unfold routeObject
  rw [hmessage, htenant, htrace, hstring "version" (by decide), hstring "request_id" (by decide),
    hstring "run_id" (by decide), hstring "policy_id" (by decide), hobject "context" (by decide)]

/-! ### The Router's reply -/

/-- What `resp_buf` holds of a reply. -/
def respBuf (reply : List UInt8) : List UInt8 := cstr (reply.take (maxMessageSize - 1))

/-- The error codes of the Router and their statuses. -/
def routerErrorTable : List (String × ℕ) :=
  [("invalid_request", 400), ("unauthorized", 401), ("policy_not_found", 404),
   ("extension_not_found", 404), ("extension_timeout", 504), ("validator_blocked", 403),
   ("post_processor_failed", 500), ("extension_unavailable", 503), ("extension_error", 500),
   ("decision_failed", 500), ("internal", 500)]

/-- The status of an error code, 0 for a code the gateway does not know. -/
def statusOfRouterCode (code : List UInt8) : ℕ :=
  ((routerErrorTable.find? fun row => ascii row.1 == code).map (·.2)).getD 0

/-- The reply is an object whose `ok` is false. -/
def isRouterError (jsonLoads : List UInt8 → Option Json) (resp : List UInt8) : Bool :=
  match (asObject (jsonLoads resp)).bind (lookup · (ascii "ok")) with
  | some (.bool ok) => !ok
  | _ => false

/-- The string at `error.code` of a reply. -/
def routerErrorCode (jsonLoads : List UInt8 → Option Json) (resp : List UInt8) :
    Option (List UInt8) :=
  asString (((asObject (jsonLoads resp)).bind (lookup · (ascii "error"))).bind (·.get? (ascii "code")))

/-- `map_router_error_status`. -/
def mapRouterErrorStatus (jsonLoads : List UInt8 → Option Json) (resp : List UInt8) : ℕ :=
  if isRouterError jsonLoads resp then
    ((routerErrorCode jsonLoads resp).map statusOfRouterCode).getD 0
  else 0

/-- The status switch of `handle_get_decision`, `handle_dry_run_pipeline` and
`handle_pipeline_complexity`. -/
def queryStatusLine : ℕ → StatusLine
  | 400 => .badRequest
  | 401 => .unauthorized
  | 404 => .notFound
  | 500 => .internalServerError
  | _ => .ok

/-- The status switch of `handle_decide`, which knows one status more. -/
def decideStatusLine : ℕ → StatusLine
  | 400 => .badRequest
  | 401 => .unauthorized
  | 404 => .notFound
  | 500 => .internalServerError
  | 503 => .serviceUnavailable
  | _ => .ok

/-- `json_object_set_new(err_obj, "intake_error_code", json_null())`, which fails on no object. -/
def addIntakeErrorCode : Json → Json
  | .object members => .object (setMember (ascii "intake_error_code") .null members)
  | other => other

/-- The error reply with an `intake_error_code`, which is added as `null` where it is missing. The code
would add the string found earlier, but it is missing here just when none was found. -/
def withIntakeErrorCode (h : Host) (resp : List UInt8) : List UInt8 :=
  match asObject (h.jsonLoads resp) with
  | none => resp
  | some members =>
      match lookup members (ascii "error") with
      | none => resp
      | some err =>
          match err.get? (ascii "intake_error_code") with
          | some _ => resp
          | none =>
              ((h.jsonDumps (.object (setMember (ascii "error") (addIntakeErrorCode err) members))).map
                respBuf).getD resp

end CGateway
