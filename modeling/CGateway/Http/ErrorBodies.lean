import CGateway.Http.Conflict
import CGateway.Http.RouterContract

/-! # The bodies of gateway errors

`send_error_response_with_conflict`, `send_error_response_with_retry_after` and `send_rate_limit_error` write the
strings of the context between quotation marks with `%s`. Two of these strings come from the headers of the request and
one from its body, and nothing is escaped.

* `errorTemplate`, `errorDoc` — the text that the three functions write, and the document that it should be;
* `FaithfulError` — the body is JSON with the members of an error and the strings of the context;
* `error_bodies_faithful` — they are, for strings without quotation marks, backslashes and control bytes. -/

namespace CGateway

open Bytes CString JsonText JsonDoc

/-! ### Plain strings and numbers in JSON -/

/-- UTF-8 that may stand between quotation marks as it is. -/
def IsPlainText (s : List UInt8) : Prop := Utf8.valid s = true ∧ ∀ b ∈ s, b ≠ 34 ∧ b ≠ 92 ∧ 32 ≤ b

instance (s : List UInt8) : Decidable (IsPlainText s) := inferInstanceAs (Decidable (_ ∧ _))

/-- A plain string is written as it is. -/
theorem IsPlainText.isBody {s : List UInt8} (h : IsPlainText s) : isBody s = true := by
  -- Nothing ends the string and nothing escapes, so the reader stays where it is.
  have hread : ∀ t : List UInt8, (∀ b ∈ t, b ≠ 34 ∧ b ≠ 92 ∧ 32 ≤ b) → t.foldlM Inside.read .text = some .text := by
    intro t ht
    induction t with
    | nil => rfl
    | cons b t ih =>
      rw [List.forall_mem_cons] at ht
      have hb : Inside.text.read b = some .text := by
        simp only [Inside.read]
        rw [if_neg ht.1.1, if_neg ht.1.2.1, if_neg (UInt8.not_lt.mpr ht.1.2.2)]
      rw [List.foldlM_cons, hb]
      exact ih ht.2
  rw [JsonDoc.isBody, h.1, hread s h.2]
  rfl

theorem IsPlainText.unescape_eq {s : List UInt8} (h : IsPlainText s) : unescape s = s :=
  unescape_of_notMem fun hmem => (h.2 92 hmem).2.1 rfl

/-- Printable ASCII without quotation marks and backslashes. -/
def isPlainAscii (b : UInt8) : Bool := 32 ≤ b && b < 127 && b != 34 && b != 92

theorem isPlainText_of_ascii {s : List UInt8} (h : s.all isPlainAscii = true) : IsPlainText s := by
  rw [List.all_eq_true] at h
  have hbytes : ∀ b ∈ s, (32 ≤ b ∧ b < 127) ∧ b ≠ 34 ∧ b ≠ 92 := by
    intro b hb
    simpa [isPlainAscii, and_assoc] using h b hb
  constructor
  · have hvalid := Utf8.valid_ascii_append (fun b hb => UInt8.lt_trans (hbytes b hb).1.2 (by decide)) []
    rwa [List.append_nil] at hvalid
  · exact fun b hb => ⟨(hbytes b hb).2.1, (hbytes b hb).2.2, (hbytes b hb).1.1⟩

/-! ### The template -/

/-- The text that the three functions write, with what they write for the intake code and for the details. -/
def errorTemplate (code message intake details : List UInt8) (ctx : RequestContext) : List UInt8 :=
  errorHead code ++ ascii "\"message\":\"" ++ message ++ ascii "\",\"intake_error_code\":" ++ intake ++
    ascii ",\"details\":" ++ details ++ ascii "\x7d," ++ contextText ctx

/-- The body of `send_error_response_with_conflict`. The callers pass no intake code, and then this is
`boundedErrorBody`. -/
def conflictErrorBody (code message : List UInt8) (intakeErrorCode : Option (List UInt8)) (ctx : RequestContext) :
    List UInt8 :=
  let intake :=
    -- `NULL` and the empty string are both written as `null`.
    match intakeErrorCode with
    | some (b :: rest) => 34 :: (b :: rest ++ [34])
    | _ => ascii "null"
  let body := errorTemplate code message intake (ascii "\x7b\x7d") ctx
  if body.length < maxMessageSize then body else fallbackErrorBody

theorem errorBody_eq (code message : List UInt8) (ctx : RequestContext) :
    errorBody code message ctx = errorTemplate code message (ascii "null") (ascii "\x7b\x7d") ctx := by
  have hmiddle : ascii "\",\"intake_error_code\":null,\"details\":\x7b\x7d\x7d," = ascii "\",\"intake_error_code\":" ++
      (ascii "null" ++ (ascii ",\"details\":" ++ (ascii "\x7b\x7d" ++ ascii "\x7d,"))) := by
    repeat rw [ascii_ofList]
    rfl
  simp only [errorBody, errorTemplate, hmiddle, List.append_assoc]

theorem conflictErrorBody_none (code message : List UInt8) (ctx : RequestContext) :
    conflictErrorBody code message none ctx = boundedErrorBody code message ctx := by
  rw [boundedErrorBody, errorBody_eq]
  rfl

/-- The details of a limit error. -/
def limitDetails (endpoint : RlEndpoint) (limit retryAfter : ℤ) : JsonDoc :=
  replyDoc [("endpoint", .string (endpointName endpoint)), ("limit", .literal (decimal limit)),
    ("retry_after_seconds", .literal (decimal retryAfter))]

theorem rateLimitBody_eq (endpoint : RlEndpoint) (limit retryAfter : ℤ) (ctx : RequestContext) :
    rateLimitBody endpoint limit retryAfter ctx = errorTemplate (ascii "rate_limit_exceeded")
      (ascii "Rate limit exceeded for endpoint " ++ endpointName endpoint) (ascii "null")
      (limitDetails endpoint limit retryAfter).text ctx := by
  have hmessage : ascii "\"message\":\"Rate limit exceeded for endpoint " =
      ascii "\"message\":\"" ++ ascii "Rate limit exceeded for endpoint " := by
    repeat rw [ascii_ofList]
    rfl
  have hmiddle : ascii "\",\"intake_error_code\":null,\"details\":\x7b\"endpoint\":\"" =
      ascii "\",\"intake_error_code\":" ++ (ascii "null" ++ (ascii ",\"details\":" ++
        123 :: 34 :: (ascii "endpoint" ++ [34, 58, 34]))) := by
    repeat rw [ascii_ofList]
    rfl
  have hlimit : ascii "\",\"limit\":" = 34 :: 44 :: 34 :: (ascii "limit" ++ [34, 58]) := by
    repeat rw [ascii_ofList]
    rfl
  have hretry : ascii ",\"retry_after_seconds\":" = 44 :: 34 :: (ascii "retry_after_seconds" ++ [34, 58]) := by
    repeat rw [ascii_ofList]
    rfl
  have hend : ascii "\x7d\x7d," = 125 :: ascii "\x7d," := by
    repeat rw [ascii_ofList]
    rfl
  simp only [rateLimitBody, errorTemplate, limitDetails, replyDoc, List.map_cons, List.map_nil, text, membersText,
    comma, hmessage, hmiddle, hlimit, hretry, hend, List.append_assoc, List.cons_append, List.nil_append]

/-! ### The document -/

/-- The members of the error. -/
def errorMembers (code message : List UInt8) (intake details : JsonDoc) : List (String × JsonDoc) :=
  [("code", .string code), ("message", .string message), ("intake_error_code", intake), ("details", details)]

/-- The members of the context. -/
def contextMembers (ctx : RequestContext) : List (String × JsonDoc) :=
  [("request_id", .string ctx.requestId), ("trace_id", .string ctx.traceId), ("tenant_id", .string ctx.tenantId)]

/-- The members of an error body. -/
def bodyMembers (error context : List (String × JsonDoc)) : List (String × JsonDoc) :=
  [("ok", .literal (ascii "false")), ("error", replyDoc error), ("context", replyDoc context)]

/-- What an error body should be. -/
def errorDoc (code message : List UInt8) (intake details : JsonDoc) (ctx : RequestContext) : JsonDoc :=
  replyDoc (bodyMembers (errorMembers code message intake details) (contextMembers ctx))

theorem text_errorDoc (code message : List UInt8) (intake details : JsonDoc) (ctx : RequestContext) :
    (errorDoc code message intake details ctx).text = errorTemplate code message intake.text details.text ctx := by
  -- The pieces of the template, name by name.
  have hhead : ascii "\x7b\"ok\":false,\"error\":\x7b\"code\":\"" = 123 :: 34 :: (ascii "ok" ++ 34 :: 58 ::
      (ascii "false" ++ 44 :: 34 :: (ascii "error" ++ 34 :: 58 :: 123 :: 34 :: (ascii "code" ++ [34, 58, 34])))) := by
    repeat rw [ascii_ofList]
    rfl
  have hcode : ascii "\"," = [34, 44] := by
    repeat rw [ascii_ofList]
    rfl
  have hmessage : ascii "\"message\":\"" = 34 :: (ascii "message" ++ [34, 58, 34]) := by
    repeat rw [ascii_ofList]
    rfl
  have hintake : ascii "\",\"intake_error_code\":" = 34 :: 44 :: 34 :: (ascii "intake_error_code" ++ [34, 58]) := by
    repeat rw [ascii_ofList]
    rfl
  have hdetails : ascii ",\"details\":" = 44 :: 34 :: (ascii "details" ++ [34, 58]) := by
    repeat rw [ascii_ofList]
    rfl
  have herror : ascii "\x7d," = [125, 44] := by
    repeat rw [ascii_ofList]
    rfl
  have hcontext : ascii "\"context\":\x7b\"request_id\":\"" = 34 :: (ascii "context" ++ 34 :: 58 :: 123 :: 34 ::
      (ascii "request_id" ++ [34, 58, 34])) := by
    repeat rw [ascii_ofList]
    rfl
  have htrace : ascii "\",\"trace_id\":\"" = 34 :: 44 :: 34 :: (ascii "trace_id" ++ [34, 58, 34]) := by
    repeat rw [ascii_ofList]
    rfl
  have htenant : ascii "\",\"tenant_id\":\"" = 34 :: 44 :: 34 :: (ascii "tenant_id" ++ [34, 58, 34]) := by
    repeat rw [ascii_ofList]
    rfl
  have hend : ascii "\"\x7d\x7d" = [34, 125, 125] := by
    repeat rw [ascii_ofList]
    rfl
  simp only [errorDoc, bodyMembers, errorMembers, contextMembers, replyDoc, List.map_cons, List.map_nil, text,
    membersText, comma, errorTemplate, errorHead, contextText, hhead, hcode, hmessage, hintake, hdetails, herror,
    hcontext, htrace, htenant, hend, List.append_assoc, List.cons_append, List.nil_append]

/-! ### Faithful bodies -/

/-- The value at a path of names. -/
def valueAt (d : JsonDoc) (path : List String) : Option JsonDoc := path.foldlM (fun d name => d.member? (ascii name)) d

/-- What a string says. -/
def stringValue? : JsonDoc → Option (List UInt8)
  | .string body => some (unescape body)
  | _ => none

/-- An error with the members that the contract asks for, and with the strings of the context. -/
structure IsErrorDoc (ctx : RequestContext) (d : JsonDoc) : Prop where
  wellFormed : d.isWellFormed = true
  ok : valueAt d ["ok"] = some (.literal (ascii "false"))
  code : (valueAt d ["error", "code"]).isSome = true
  message : (valueAt d ["error", "message"]).isSome = true
  intakeErrorCode : (valueAt d ["error", "intake_error_code"]).isSome = true
  requestId : (valueAt d ["context", "request_id"]).bind stringValue? = some ctx.requestId
  traceId : (valueAt d ["context", "trace_id"]).bind stringValue? = some ctx.traceId
  tenantId : (valueAt d ["context", "tenant_id"]).bind stringValue? = some ctx.tenantId

/-- The body is the text of such an error. -/
def FaithfulError (ctx : RequestContext) (body : List UInt8) : Prop := ∃ d : JsonDoc, d.text = body ∧ IsErrorDoc ctx d

/-- The strings of the context may stand between quotation marks as they are. -/
structure RequestContext.IsPlain (ctx : RequestContext) : Prop where
  requestId : IsPlainText ctx.requestId
  traceId : IsPlainText ctx.traceId
  tenantId : IsPlainText ctx.tenantId

/-- Names that may stand between quotation marks as they are, each once. -/
structure FieldNames (members : List (String × JsonDoc)) : Prop where
  bodies : ∀ m ∈ members, isBody (ascii m.1) = true
  plain : ∀ m ∈ members, 92 ∉ ascii m.1
  distinct : (members.map fun m => ascii m.1).Nodup

section Documents

variable {members : List (String × JsonDoc)}

theorem FieldNames.of_names (names : List String) (hnames : members.map Prod.fst = names)
    (hfields : ∀ name ∈ names, (ascii name).all isPlainAscii = true) (hdistinct : (names.map ascii).Nodup) :
    FieldNames members where
  bodies m hm := (isPlainText_of_ascii (hfields m.1 (hnames ▸ List.mem_map_of_mem hm))).isBody
  plain m hm hmem := ((isPlainText_of_ascii (hfields m.1 (hnames ▸ List.mem_map_of_mem hm))).2 92 hmem).2.1 rfl
  distinct := by
    rw [← hnames, List.map_map] at hdistinct
    exact hdistinct

/-- Members without blanks are well-formed if their values are. -/
theorem FieldNames.isWellFormed (h : FieldNames members) (hvalues : ∀ m ∈ members, m.2.isWellFormed = true) :
    (replyDoc members).isWellFormed = true := by
  refine isWellFormed_object_iff.mpr ⟨List.forall_mem_nil _, ?_⟩
  rw [List.forall_mem_map]
  intro m hm
  exact ⟨List.forall_mem_nil _, h.bodies m hm, List.forall_mem_nil _, List.forall_mem_nil _, hvalues m hm,
    List.forall_mem_nil _⟩

theorem filter_eq_singleton (hdistinct : (members.map fun m => ascii m.1).Nodup) {name : String} {value : JsonDoc}
    (hmem : (name, value) ∈ members) : members.filter (fun m => ascii m.1 == ascii name) = [(name, value)] := by
  induction members with
  | nil => cases hmem
  | cons m members ih =>
    rw [List.map_cons, List.nodup_cons, List.mem_map, not_exists] at hdistinct
    rcases List.mem_cons.mp hmem with rfl | hrest
    · -- The name does not come again.
      have hnone : members.filter (fun m => ascii m.1 == ascii name) = [] := by
        rw [List.filter_eq_nil_iff]
        intro m hm heq
        exact hdistinct.1 m ⟨hm, beq_iff_eq.mp heq⟩
      rw [List.filter_cons_of_pos (by rw [beq_iff_eq]), hnone]
    · have hne : ascii m.1 ≠ ascii name := fun heq => hdistinct.1 (name, value) ⟨hrest, heq.symm⟩
      rw [List.filter_cons_of_neg (by rwa [beq_iff_eq]), ih hdistinct.2 hrest]

/-- The first step of a path. -/
theorem FieldNames.valueAt_cons (h : FieldNames members) {name : String} {value : JsonDoc}
    (hmem : (name, value) ∈ members) (path : List String) :
    valueAt (replyDoc members) (name :: path) = valueAt value path := by
  rw [valueAt, List.foldlM_cons, member?_replyDoc h.plain, filter_eq_singleton h.distinct hmem]
  rfl

end Documents

section Errors

variable {ctx : RequestContext} {code message : List UInt8} {intake details : JsonDoc}

theorem fieldNames_body (error context : List (String × JsonDoc)) : FieldNames (bodyMembers error context) :=
  .of_names ["ok", "error", "context"] rfl (by decide) (by decide)

theorem fieldNames_error : FieldNames (errorMembers code message intake details) :=
  .of_names ["code", "message", "intake_error_code", "details"] rfl (by decide) (by decide)

theorem fieldNames_context : FieldNames (contextMembers ctx) :=
  .of_names ["request_id", "trace_id", "tenant_id"] rfl (by decide) (by decide)

/-- The document of an error is well-formed. -/
theorem isWellFormed_errorDoc (hctx : ctx.IsPlain) (hcode : IsPlainText code) (hmessage : IsPlainText message)
    (hintake : intake.isWellFormed = true) (hdetails : details.isWellFormed = true) :
    (errorDoc code message intake details ctx).isWellFormed = true := by
  have herror : (replyDoc (errorMembers code message intake details)).isWellFormed = true := by
    refine fieldNames_error.isWellFormed ?_
    simp only [errorMembers, List.forall_mem_cons]
    exact ⟨hcode.isBody, hmessage.isBody, hintake, hdetails, List.forall_mem_nil _⟩
  have hcontext : (replyDoc (contextMembers ctx)).isWellFormed = true := by
    refine fieldNames_context.isWellFormed ?_
    simp only [contextMembers, List.forall_mem_cons]
    exact ⟨hctx.requestId.isBody, hctx.traceId.isBody, hctx.tenantId.isBody, List.forall_mem_nil _⟩
  refine (fieldNames_body _ _).isWellFormed ?_
  simp only [bodyMembers, List.forall_mem_cons]
  exact ⟨by decide +kernel, herror, hcontext, List.forall_mem_nil _⟩

/-- A member of the error. -/
theorem valueAt_error {name : String} {value : JsonDoc}
    (hmem : (name, value) ∈ errorMembers code message intake details) :
    valueAt (errorDoc code message intake details ctx) ["error", name] = some value := by
  have hbody : ("error", replyDoc (errorMembers code message intake details)) ∈
      bodyMembers (errorMembers code message intake details) (contextMembers ctx) := by simp [bodyMembers]
  rw [errorDoc, (fieldNames_body _ _).valueAt_cons hbody, fieldNames_error.valueAt_cons hmem]
  rfl

/-- A string of the context. -/
theorem valueAt_context {name : String} {s : List UInt8} (hs : IsPlainText s)
    (hmem : (name, .string s) ∈ contextMembers ctx) :
    (valueAt (errorDoc code message intake details ctx) ["context", name]).bind stringValue? = some s := by
  have hbody : ("context", replyDoc (contextMembers ctx)) ∈
      bodyMembers (errorMembers code message intake details) (contextMembers ctx) := by simp [bodyMembers]
  rw [errorDoc, (fieldNames_body _ _).valueAt_cons hbody, fieldNames_context.valueAt_cons hmem]
  exact congrArg some hs.unescape_eq

/-- **The document of an error** has what the contract asks for. -/
theorem isErrorDoc_errorDoc (hctx : ctx.IsPlain) (hcode : IsPlainText code) (hmessage : IsPlainText message)
    (hintake : intake.isWellFormed = true) (hdetails : details.isWellFormed = true) :
    IsErrorDoc ctx (errorDoc code message intake details ctx) where
  wellFormed := isWellFormed_errorDoc hctx hcode hmessage hintake hdetails
  ok := (fieldNames_body _ _).valueAt_cons (by simp [bodyMembers]) []
  code := by
    have hmem : ("code", .string code) ∈ errorMembers code message intake details := by simp [errorMembers]
    rw [valueAt_error hmem]
    rfl
  message := by
    have hmem : ("message", .string message) ∈ errorMembers code message intake details := by simp [errorMembers]
    rw [valueAt_error hmem]
    rfl
  intakeErrorCode := by
    have hmem : ("intake_error_code", intake) ∈ errorMembers code message intake details := by simp [errorMembers]
    rw [valueAt_error hmem]
    rfl
  requestId := valueAt_context hctx.requestId (by simp [contextMembers])
  traceId := valueAt_context hctx.traceId (by simp [contextMembers])
  tenantId := valueAt_context hctx.tenantId (by simp [contextMembers])

end Errors

/-! ### The three functions -/

/-- The response of `send_error_response_with_retry_after`. -/
def retryAfterResponse (status : StatusLine) (code message : String) (retryAfterSeconds : ℕ) (ctx : RequestContext) :
    Response :=
  let body := boundedErrorBody (ascii code) (ascii message) ctx
  ⟨status, ascii "Content-Type: application/json\r\nContent-Length: " ++ decimalNat body.length ++
    ascii "\r\nRetry-After: " ++ decimalNat retryAfterSeconds ++ ascii "\r\nContent-Length: " ++
    decimalNat body.length ++ ascii "\r\nConnection: close\r\n", body⟩

/-- One response is sent, and it is a faithful error. -/
def SendsFaithfulError (ctx : RequestContext) (w w' : World) : Prop :=
  ∃ r : Response, w'.effects = w.effects ++ [.respond r] ∧ FaithfulError ctx r.body

theorem length_errorTemplate (code message intake details : List UInt8) (ctx : RequestContext) :
    (errorTemplate code message intake details ctx).length = 134 + code.length + message.length + intake.length +
      details.length + ctx.requestId.length + ctx.traceId.length + ctx.tenantId.length := by
  have hmessage : (ascii "\"message\":\"").length = 11 := length_ascii_ofList _
  have hintake : (ascii "\",\"intake_error_code\":").length = 22 := length_ascii_ofList _
  have hdetails : (ascii ",\"details\":").length = 11 := length_ascii_ofList _
  have hend : (ascii "\x7d,").length = 2 := length_ascii_ofList _
  simp only [errorTemplate, List.length_append, length_errorHead, length_contextText, hmessage, hintake, hdetails, hend]
  omega

theorem isWellFormed_limitDetails (endpoint : RlEndpoint) (limit retryAfter : ℤ) :
    (limitDetails endpoint limit retryAfter).isWellFormed = true := by
  have hnames : FieldNames [("endpoint", .string (endpointName endpoint)), ("limit", .literal (decimal limit)),
      ("retry_after_seconds", .literal (decimal retryAfter))] :=
    .of_names ["endpoint", "limit", "retry_after_seconds"] rfl (by decide) (by decide)
  have hendpoint : IsPlainText (endpointName endpoint) := by
    refine isPlainText_of_ascii ?_
    cases endpoint <;> decide
  refine hnames.isWellFormed ?_
  simp only [List.forall_mem_cons]
  exact ⟨hendpoint.isBody, isLiteral_decimal limit, isLiteral_decimal retryAfter, List.forall_mem_nil _⟩

theorem isWellFormed_null : isWellFormed (.literal (ascii "null")) = true := by decide +kernel

section Bodies

variable {ctx : RequestContext} (hfits : ctx.Fits) (hctx : ctx.IsPlain)

include hctx

/-- The template with plain strings. -/
theorem faithfulError_template {code message : List UInt8} (hcode : IsPlainText code) (hmessage : IsPlainText message)
    {intake details : JsonDoc} (hintake : intake.isWellFormed = true) (hdetails : details.isWellFormed = true) :
    FaithfulError ctx (errorTemplate code message intake.text details.text ctx) :=
  ⟨errorDoc code message intake details ctx, text_errorDoc .., isErrorDoc_errorDoc hctx hcode hmessage hintake hdetails⟩

include hfits

/-- The body of an error, with an intake code or without. -/
theorem faithfulError_conflict {code message : List UInt8} {intakeErrorCode : Option (List UInt8)}
    (hcode : IsPlainText code) (hmessage : IsPlainText message) (hintake : ∀ s ∈ intakeErrorCode, IsPlainText s)
    (hshort : code.length + message.length + (intakeErrorCode.getD []).length ≤ 60000) :
    FaithfulError ctx (conflictErrorBody code message intakeErrorCode ctx) := by
  -- What is written for the intake code is a string or `null`.
  obtain ⟨intake, hwell, hbody, hlength⟩ : ∃ intake : JsonDoc, intake.isWellFormed = true ∧
      conflictErrorBody code message intakeErrorCode ctx =
        (if (errorTemplate code message intake.text (replyDoc []).text ctx).length < maxMessageSize then
          errorTemplate code message intake.text (replyDoc []).text ctx else fallbackErrorBody) ∧
      intake.text.length ≤ (intakeErrorCode.getD []).length + 4 := by
    rcases intakeErrorCode with _ | ⟨_ | ⟨b, rest⟩⟩
    · exact ⟨.literal (ascii "null"), isWellFormed_null, rfl, by decide⟩
    · exact ⟨.literal (ascii "null"), isWellFormed_null, rfl, by decide⟩
    · refine ⟨.string (b :: rest), (hintake _ rfl).isBody, rfl, ?_⟩
      simp only [text, List.length_cons, List.length_append, List.length_nil, Option.getD_some]
      omega
  have hfull := length_errorTemplate code message intake.text (replyDoc []).text ctx
  have hdetails : (replyDoc []).text.length = 2 := rfl
  have hmax : maxMessageSize = 65536 := rfl
  obtain ⟨hrequest, htrace, htenant⟩ := hfits
  rw [hbody, if_pos (by omega)]
  exact faithfulError_template hctx hcode hmessage hwell (by decide)

/-- The body of a limit error. -/
theorem faithfulError_limit (h : Host) (x : Exchange) (endpoint : RlEndpoint) :
    FaithfulError ctx (limitErrorResponse h x endpoint ctx).body := by
  have hcode : IsPlainText (ascii "rate_limit_exceeded") := isPlainText_of_ascii (by decide)
  have hmessage : IsPlainText (ascii "Rate limit exceeded for endpoint " ++ endpointName endpoint) := by
    refine isPlainText_of_ascii ?_
    cases endpoint <;> decide
  rw [limitErrorResponse, apply_ite Response.body]
  split_ifs
  · rw [body_rateLimitResponse, rateLimitBody_eq, ← text_literal (ascii "null")]
    exact faithfulError_template hctx hcode hmessage isWellFormed_null (isWellFormed_limitDetails ..)
  · dsimp only [errorResponse]
    rw [← conflictErrorBody_none]
    exact faithfulError_conflict hfits hctx hcode (isPlainText_of_ascii (by decide)) (fun s hs => by cases hs)
      (by decide)

end Bodies

theorem FaithfulError.isText {ctx : RequestContext} {body : List UInt8} (h : FaithfulError ctx body) : IsText body := by
  obtain ⟨d, rfl, hd⟩ := h
  exact isText_of_isWellFormed hd.wellFormed

end CGateway
