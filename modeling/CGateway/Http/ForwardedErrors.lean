import CGateway.Http.Decide
import CGateway.Http.ErrorBodies

/-! # Errors of the Router on their way to the client

Where the error in a reply of the Router has no `intake_error_code`, `handle_decide` adds one: the reply is parsed, the
member is set, the value is written again and copied back into the response buffer, as far as it fits.

* `CodeAdded` — one value is another with an intake code;
* `KeepsContract` — a body is JSON, has the code and says otherwise what the reply says;
* `JsonLibrary` — what is used of the JSON library;
* `router_error_contract_iff` — bodies are right just when nothing has to be added or the new text fits the buffer. -/

namespace CGateway

open Bytes CString Json JsonText

/-! ### The contract -/

/-- The value with an intake code in its error. -/
def withCode (members : Members) (err : Json) : Json :=
  .object (setMember (ascii "error") (addIntakeErrorCode err) members)

/-- The error has an intake code, and all else is as it was. -/
structure CodeAdded (v v' : Json) : Prop where
  others : ∀ key, key ≠ ascii "error" → v'.get? key = v.get? key
  error : ∃ e e', v.get? (ascii "error") = some e ∧ v'.get? (ascii "error") = some e' ∧
    (e'.get? (ascii "intake_error_code")).isSome = true ∧
    (∀ key, key ≠ ascii "intake_error_code" → e'.get? key = e.get? key) ∧
    ∀ code, e.get? (ascii "intake_error_code") = some code → e'.get? (ascii "intake_error_code") = some code

/-- The body is JSON and says what the reply says, with an intake code. -/
structure KeepsContract (h : Host) (reply body : List UInt8) : Prop where
  wellFormed : IsText body
  value : ∃ v v', h.jsonLoads reply = some v ∧ h.jsonLoads body = some v' ∧ CodeAdded v v'

/-- What is used of the JSON library: it reads JSON texts, and what it writes for the value of the reply with a code in
it is an object in braces that it reads back. -/
structure JsonLibrary (h : Host) (reply : List UInt8) : Prop where
  reads : ∀ text v, h.jsonLoads text = some v → IsText text
  writes : ∀ members err text, h.jsonLoads reply = some (.object members) →
    lookup members (ascii "error") = some err → h.jsonDumps (withCode members err) = some text →
      h.jsonLoads text = some (withCode members err) ∧ ∃ inner, text = 123 :: (inner ++ [125])

/-- The error in the reply has an intake code already, or the text with one fits the response buffer. -/
def CodeFits (h : Host) (reply : List UInt8) : Prop :=
  ∀ members err, h.jsonLoads reply = some (.object members) → lookup members (ascii "error") = some err →
    (err.get? (ascii "intake_error_code")).isSome = true ∨
      ∃ text, h.jsonDumps (withCode members err) = some text ∧ text.length < maxMessageSize

/-! ### The reply -/

theorem eq_object_of_asObject {v? : Option Json} {members : Members} (h : asObject v? = some members) :
    v? = some (.object members) := by
  rcases v? with _ | v
  · cases h
  · cases v with
    | object members' =>
      obtain rfl := Option.some.inj h
      rfl
    | _ => cases h

/-- A reply with an error status is an object whose error is one. -/
theorem exists_error_of_status {jsonLoads : List UInt8 → Option Json} {resp : List UInt8}
    (hstatus : 400 ≤ mapRouterErrorStatus jsonLoads resp) :
    ∃ members fields, jsonLoads resp = some (.object members) ∧
      lookup members (ascii "error") = some (.object fields) := by
  rw [mapRouterErrorStatus] at hstatus
  split_ifs at hstatus
  · cases hcode : routerErrorCode jsonLoads resp with
    | none =>
      rw [hcode] at hstatus
      exact absurd hstatus (by decide)
    | some code =>
      rw [routerErrorCode] at hcode
      cases hload : asObject (jsonLoads resp) with
      | none =>
        rw [hload] at hcode
        cases hcode
      | some members =>
        rw [hload, Option.bind_some] at hcode
        refine ⟨members, ?_⟩
        cases herror : lookup members (ascii "error") with
        | none =>
          rw [herror] at hcode
          cases hcode
        | some err =>
          rw [herror, Option.bind_some] at hcode
          cases err with
          | object fields => exact ⟨fields, eq_object_of_asObject hload, rfl⟩
          | _ => cases hcode
  · exact absurd hstatus (by decide)

section Added

variable {members fields : Members}

theorem codeAdded_self (herror : lookup members (ascii "error") = some (.object fields))
    (hcode : (lookup fields (ascii "intake_error_code")).isSome = true) :
    CodeAdded (.object members) (.object members) :=
  ⟨fun _ _ => rfl, .object fields, .object fields, herror, herror, hcode, fun _ _ => rfl, fun _ h => h⟩

theorem codeAdded_withCode (herror : lookup members (ascii "error") = some (.object fields))
    (hcode : lookup fields (ascii "intake_error_code") = none) :
    CodeAdded (.object members) (withCode members (.object fields)) where
  others key hkey := lookup_setMember_of_ne hkey _ _
  error := by
    refine ⟨.object fields, addIntakeErrorCode (.object fields), herror, lookup_setMember_self .., ?_, ?_, ?_⟩
    · rw [addIntakeErrorCode, get?, lookup_setMember_self]
      rfl
    · exact fun key hkey => lookup_setMember_of_ne hkey _ _
    · intro code hsome
      rw [get?, hcode] at hsome
      cases hsome

end Added

section Body

variable {h : Host} {resp : List UInt8} {members fields : Members}
  (hresp : h.jsonLoads resp = some (.object members)) (herror : lookup members (ascii "error") = some (.object fields))

include hresp herror

theorem withIntakeErrorCode_of_some (hcode : (lookup fields (ascii "intake_error_code")).isSome = true) :
    withIntakeErrorCode h resp = resp := by
  obtain ⟨code, hcode⟩ := Option.isSome_iff_exists.mp hcode
  have hget : get? (.object fields) (ascii "intake_error_code") = some code := hcode
  simp only [withIntakeErrorCode, hresp, asObject, herror, hget]

theorem withIntakeErrorCode_of_none (hcode : lookup fields (ascii "intake_error_code") = none) :
    withIntakeErrorCode h resp = ((h.jsonDumps (withCode members (.object fields))).map respBuf).getD resp := by
  have hget : get? (.object fields) (ascii "intake_error_code") = none := hcode
  simp only [withIntakeErrorCode, hresp, asObject, herror, hget]
  rfl

theorem codeFits_iff : CodeFits h resp ↔ (lookup fields (ascii "intake_error_code")).isSome = true ∨
    ∃ text, h.jsonDumps (withCode members (.object fields)) = some text ∧ text.length < maxMessageSize := by
  constructor
  · exact fun hfits => hfits members (.object fields) hresp herror
  · intro hfits members' err hresp' herror'
    obtain rfl := Json.object.inj (Option.some.inj (hresp.symm.trans hresp'))
    obtain rfl := Option.some.inj (herror.symm.trans herror')
    exact hfits

end Body

/-- What does not fit the response buffer is cut, and is no JSON then. -/
theorem respBuf_written {h : Host} {reply text : List UInt8} {v : Json} (hlibrary : JsonLibrary h reply)
    (hread : h.jsonLoads text = some v) {inner : List UInt8} (hbraces : text = 123 :: (inner ++ [125])) :
    (text.length < maxMessageSize → respBuf text = text) ∧
      (¬text.length < maxMessageSize → ¬IsText (respBuf text)) := by
  have htext := hlibrary.reads text v hread
  have hcstr : respBuf text = text.take (maxMessageSize - 1) :=
    cstr_of_no_zero fun hzero => htext.zero_notMem (List.mem_of_mem_take hzero)
  rw [hcstr]
  constructor
  · intro hfits
    exact List.take_of_length_le (Nat.le_sub_one_of_lt hfits)
  · intro hlong hcut
    -- The brace at the end is lost, and a text that ends before it is none.
    have hwhole := List.take_append_drop (maxMessageSize - 1) text
    have hmax : maxMessageSize = 65536 := rfl
    have hrest : text.drop (maxMessageSize - 1) ≠ [] := by
      rw [Ne, List.drop_eq_nil_iff]
      omega
    have haccepts : accepts (text.take (maxMessageSize - 1) ++ text.drop (maxMessageSize - 1)) = true := by
      rw [hwhole]
      exact htext.2
    exact absurd (hcut.2.symm.trans (not_accepts_of_cut (hwhole.trans hbraces) hrest haccepts)) (by decide)

/-- The body that is sent for an error. -/
theorem keepsContract_iff {h : Host} {resp : List UInt8} (hlibrary : JsonLibrary h resp)
    (hstatus : 400 ≤ mapRouterErrorStatus h.jsonLoads resp) :
    KeepsContract h resp (withIntakeErrorCode h resp) ↔ CodeFits h resp := by
  obtain ⟨members, fields, hresp, herror⟩ := exists_error_of_status hstatus
  rw [codeFits_iff hresp herror]
  cases hcode : lookup fields (ascii "intake_error_code") with
  | some code =>
    -- Nothing is added, and the reply is sent as it came.
    have hsome : (lookup fields (ascii "intake_error_code")).isSome = true := by rw [hcode]; rfl
    rw [withIntakeErrorCode_of_some hresp herror hsome]
    refine iff_of_true ?_ (.inl rfl)
    exact ⟨hlibrary.reads _ _ hresp, .object members, .object members, hresp, hresp, codeAdded_self herror hsome⟩
  | none =>
    rw [withIntakeErrorCode_of_none hresp herror hcode]
    cases hdump : h.jsonDumps (withCode members (.object fields)) with
    | none =>
      -- The reply stays as it was, without a code.
      refine iff_of_false ?_ ?_
      · rintro ⟨-, v, v', -, hv', hadded⟩
        obtain rfl := Option.some.inj (hresp.symm.trans hv')
        obtain ⟨e, e', -, he', hsome, -, -⟩ := hadded.error
        obtain rfl := Option.some.inj (herror.symm.trans he')
        rw [get?, hcode] at hsome
        cases hsome
      · rintro (hsome | ⟨text, htext, -⟩)
        · cases hsome
        · cases htext
    | some text =>
      obtain ⟨hread, inner, hbraces⟩ := hlibrary.writes members _ text hresp herror hdump
      obtain ⟨hfits, hcut⟩ := respBuf_written hlibrary hread hbraces
      rw [Option.map_some, Option.getD_some]
      by_cases hlt : text.length < maxMessageSize
      · rw [hfits hlt]
        refine iff_of_true ?_ (.inr ⟨text, rfl, hlt⟩)
        exact ⟨hlibrary.reads _ _ hread, .object members, _, hresp, hread, codeAdded_withCode herror hcode⟩
      · refine iff_of_false (fun hkeeps => hcut hlt hkeeps.wellFormed) ?_
        rintro (hsome | ⟨text', htext', hlt'⟩)
        · cases hsome
        · obtain rfl := Option.some.inj htext'
          exact hlt hlt'

/-- The response to an error of the Router. -/
def forwardedError (h : Host) (resp : List UInt8) : Response :=
  ⟨decideStatusLine (mapRouterErrorStatus h.jsonLoads resp),
    responseHeaders "application/json" (withIntakeErrorCode h resp).length, withIntakeErrorCode h resp⟩

theorem effects_answerDecide {h : Host} {resp : List UInt8} (hstatus : 400 ≤ mapRouterErrorStatus h.jsonLoads resp)
    (w : World) : (answerDecide h resp w).effects = w.effects ++ [.respond (forwardedError h resp)] := by
  dsimp only [answerDecide]
  rw [if_pos hstatus]
  rfl

/-- **Forwarded errors keep the contract** just when their code is there or fits: the body is JSON, has an intake code
and says otherwise what the reply says. -/
theorem router_error_contract_iff (h : Host) (reply : List UInt8) (w : World) (hlength : reply.length ≤ 65535)
    (hlibrary : JsonLibrary h (cstr reply)) (hstatus : 400 ≤ mapRouterErrorStatus h.jsonLoads (cstr reply)) :
    (∃ r : Response, (answerDecide h (respBuf reply) w).effects = w.effects ++ [.respond r] ∧
      KeepsContract h (cstr reply) r.body) ↔ CodeFits h (cstr reply) := by
  -- The reply fits the response buffer, so all of it is looked at.
  have hbuffer : respBuf reply = cstr reply := by
    rw [respBuf, List.take_of_length_le]
    exact hlength
  rw [hbuffer, effects_answerDecide hstatus, ← keepsContract_iff hlibrary hstatus]
  constructor
  · rintro ⟨r, hr, hkeeps⟩
    have hsame := List.append_cancel_left hr
    rw [List.cons.injEq, Effect.respond.injEq] at hsame
    rw [← hsame.1] at hkeeps
    exact hkeeps
  · exact fun hkeeps => ⟨_, rfl, hkeeps⟩

/-! ### Replies with a long message -/

/-- The members of an error with this message, and more. -/
def failureFields (message : List UInt8) (more : Members) : Members :=
  (ascii "code", .string (ascii "internal")) :: (ascii "message", .string message) :: more

/-- A reply with such an error. -/
def failureReply (message : List UInt8) (more : Members) : Members :=
  [(ascii "ok", .bool false), (ascii "error", .object (failureFields message more))]

/-- The reply as it is written. -/
def failureText (message : List UInt8) (more : Members) : List UInt8 :=
  Json.compact (fun _ => ascii "0.0") (.object (failureReply message more))

/-- The member that is added. -/
def nullCode : Members := [(ascii "intake_error_code", .null)]

/-- A host that can read the reply, without the code and with it. -/
def failureHost (message : List UInt8) : Host :=
  .ofTables [] [(failureText message [], .object (failureReply message [])),
    (failureText message nullCode, .object (failureReply message nullCode))]

theorem quoted_of_isPlainText {s : List UInt8} (h : IsPlainText s) : Json.quoted s = 34 :: (s ++ [34]) := by
  have hescape : ∀ t : List UInt8, (∀ b ∈ t, b ≠ 34 ∧ b ≠ 92 ∧ 32 ≤ b) → t.flatMap Json.escapeByte = t := by
    intro t ht
    induction t with
    | nil => rfl
    | cons b t ih =>
      rw [List.forall_mem_cons] at ht
      have hbyte : Json.escapeByte b = [b] := by
        obtain ⟨hquote, hbackslash, hcontrol⟩ := ht.1
        have hne : ∀ c : UInt8, c < 32 → b ≠ c := by
          rintro c hc rfl
          exact absurd hc (UInt8.not_lt.mpr hcontrol)
        simp [Json.escapeByte, hquote, hbackslash, hne 8 (by decide), hne 9 (by decide), hne 10 (by decide),
          hne 12 (by decide), hne 13 (by decide), UInt8.not_lt.mpr hcontrol]
      rw [List.flatMap_cons, hbyte, ih ht.2]
      rfl
  rw [Json.quoted, hescape s h.2]
  rfl

/-- The document of the reply. -/
def failureDoc (message : List UInt8) (more : List (String × JsonDoc)) : JsonDoc :=
  replyDoc [("ok", .literal (ascii "false")),
    ("error", replyDoc (("code", .string (ascii "internal")) :: ("message", .string message) :: more))]

theorem eq_or_eq_of_lookup {text a b : List UInt8} {v va vb : Json}
    (h : List.lookup text [(a, va), (b, vb)] = some v) : text = a ∨ text = b := by
  rw [List.lookup_cons] at h
  split at h
  · next heq => exact .inl (beq_iff_eq.mp heq)
  · rw [List.lookup_cons] at h
    split at h
    · next heq => exact .inr (beq_iff_eq.mp heq)
    · cases h

theorem lookup_failureReply (message : List UInt8) (more : Members) :
    lookup (failureReply message more) (ascii "error") = some (.object (failureFields message more)) := by
  have hne : ascii "ok" ≠ ascii "error" := by decide
  rw [failureReply, lookup_cons, if_neg hne, lookup_cons, if_pos rfl]

theorem lookup_failureFields (message : List UInt8) :
    lookup (failureFields message []) (ascii "intake_error_code") = none := by
  have hcode : ascii "code" ≠ ascii "intake_error_code" := by decide
  have hmessage : ascii "message" ≠ ascii "intake_error_code" := by decide
  rw [failureFields, lookup_cons, if_neg hcode, lookup_cons, if_neg hmessage]
  rfl

theorem withCode_failureReply (message : List UInt8) :
    withCode (failureReply message []) (.object (failureFields message [])) =
      .object (failureReply message nullCode) := by
  have herror : (ascii "ok" == ascii "error") = false := by decide
  have hcode : (ascii "code" == ascii "intake_error_code") = false := by decide
  have hmessage : (ascii "message" == ascii "intake_error_code") = false := by decide
  simp [withCode, failureReply, failureFields, addIntakeErrorCode, setMember, nullCode, herror, hcode, hmessage]

theorem jsonDumps_failureHost (message : List UInt8) :
    (failureHost message).jsonDumps (withCode (failureReply message []) (.object (failureFields message []))) =
      some (failureText message nullCode) := by
  rw [withCode_failureReply]
  rfl

section Message

variable {message : List UInt8} (hmessage : IsPlainText message)

include hmessage

/-- What is written is the text of the document. -/
theorem failureText_eq :
    failureText message [] = (failureDoc message []).text ∧
      failureText message nullCode = (failureDoc message [("intake_error_code", .literal (ascii "null"))]).text := by
  have hname : ∀ name ∈ ["ok", "error", "code", "internal", "message", "intake_error_code"],
      Json.quoted (ascii name) = 34 :: (ascii name ++ [34]) := by
    have hplain : ∀ name ∈ ["ok", "error", "code", "internal", "message", "intake_error_code"],
        (ascii name).all isPlainAscii = true := by decide
    exact fun name hmem => quoted_of_isPlainText (isPlainText_of_ascii (hplain name hmem))
  have hopen : ascii "\x7b" = [123] := rfl
  have hclose : ascii "\x7d" = [125] := rfl
  have hcolon : ascii ":" = [58] := rfl
  have hcomma : ascii "," = [44] := rfl
  constructor
  all_goals
    simp only [failureText, failureReply, failureFields, nullCode, Json.compact, Json.compactMembers, List.isEmpty_nil,
      List.isEmpty_cons, Bool.false_eq_true, if_true, if_false, hname "ok" (by decide), hname "error" (by decide),
      hname "code" (by decide), hname "internal" (by decide), hname "message" (by decide),
      hname "intake_error_code" (by decide), quoted_of_isPlainText hmessage, hopen, hclose, hcolon, hcomma, failureDoc,
      replyDoc, List.map_cons, List.map_nil, JsonDoc.text, JsonDoc.membersText, JsonDoc.comma, List.append_assoc,
      List.cons_append, List.nil_append, List.append_nil]

theorem isText_failureText : IsText (failureText message []) ∧ IsText (failureText message nullCode) := by
  have houter : ∀ error, error.isWellFormed = true →
      (replyDoc [("ok", .literal (ascii "false")), ("error", error)]).isWellFormed = true := by
    intro error herror
    have hnames : FieldNames [("ok", .literal (ascii "false")), ("error", error)] :=
      .of_names ["ok", "error"] rfl (by decide) (by decide)
    refine hnames.isWellFormed ?_
    simp only [List.forall_mem_cons]
    exact ⟨by decide +kernel, herror, List.forall_mem_nil _⟩
  have hcode : IsPlainText (ascii "internal") := isPlainText_of_ascii (by decide)
  rw [(failureText_eq hmessage).1, (failureText_eq hmessage).2]
  constructor
  · have hnames : FieldNames [("code", .string (ascii "internal")), ("message", .string message)] :=
      .of_names ["code", "message"] rfl (by decide) (by decide)
    refine JsonDoc.isText_of_isWellFormed (houter _ (hnames.isWellFormed ?_))
    simp only [List.forall_mem_cons]
    exact ⟨hcode.isBody, hmessage.isBody, List.forall_mem_nil _⟩
  · have hnames : FieldNames [("code", .string (ascii "internal")), ("message", .string message),
        ("intake_error_code", .literal (ascii "null"))] :=
      .of_names ["code", "message", "intake_error_code"] rfl (by decide) (by decide)
    refine JsonDoc.isText_of_isWellFormed (houter _ (hnames.isWellFormed ?_))
    simp only [List.forall_mem_cons]
    exact ⟨hcode.isBody, hmessage.isBody, isWellFormed_null, List.forall_mem_nil _⟩

/-- How long the two texts are. -/
theorem length_failureText :
    (failureText message []).length = 53 + message.length ∧
      (failureText message nullCode).length = 78 + message.length := by
  have hlengths : (ascii "ok").length = 2 ∧ (ascii "false").length = 5 ∧ (ascii "error").length = 5 ∧
      (ascii "code").length = 4 ∧ (ascii "internal").length = 8 ∧ (ascii "message").length = 7 ∧
      (ascii "intake_error_code").length = 17 ∧ (ascii "null").length = 4 := by
    refine ⟨?_, ?_, ?_, ?_, ?_, ?_, ?_, ?_⟩
    all_goals exact length_ascii_ofList _
  obtain ⟨hok, hfalse, herror, hcode, hinternal, hname, hintake, hnull⟩ := hlengths
  rw [(failureText_eq hmessage).1, (failureText_eq hmessage).2]
  constructor
  all_goals
    simp only [failureDoc, replyDoc, List.map_cons, List.map_nil, JsonDoc.text, JsonDoc.membersText, JsonDoc.comma,
      List.length_cons, List.length_append, List.length_nil, hok, hfalse, herror, hcode, hinternal, hname, hintake,
      hnull]
    omega

theorem jsonLoads_failureHost :
    (failureHost message).jsonLoads (failureText message []) = some (.object (failureReply message [])) ∧
      (failureHost message).jsonLoads (failureText message nullCode) =
        some (.object (failureReply message nullCode)) := by
  obtain ⟨hshort, hlong⟩ := length_failureText hmessage
  have hne : (failureText message nullCode == failureText message []) = false := by
    rw [beq_eq_false_iff_ne]
    intro heq
    rw [heq] at hlong
    omega
  simp [failureHost, Host.ofTables, List.lookup_cons, hne]

theorem jsonLibrary_failureHost : JsonLibrary (failureHost message) (failureText message []) := by
  obtain ⟨hread, hreadCoded⟩ := jsonLoads_failureHost hmessage
  constructor
  · intro text v hv
    obtain ⟨hshort, hlong⟩ := isText_failureText hmessage
    rcases eq_or_eq_of_lookup hv with rfl | rfl
    · exact hshort
    · exact hlong
  · intro members err text hresp herror hdump
    obtain rfl := Json.object.inj (Option.some.inj (hread.symm.trans hresp))
    obtain rfl := Option.some.inj ((lookup_failureReply message []).symm.trans herror)
    rw [withCode_failureReply] at hdump ⊢
    obtain rfl := Option.some.inj hdump
    exact ⟨hreadCoded, _, rfl⟩

theorem cstr_failureText : cstr (failureText message []) = failureText message [] :=
  cstr_of_no_zero (isText_failureText hmessage).1.zero_notMem

/-- The reply is an error of the Router. -/
theorem status_failureText : mapRouterErrorStatus (failureHost message).jsonLoads (failureText message []) = 500 := by
  have hread := (jsonLoads_failureHost hmessage).1
  have hok : lookup (failureReply message []) (ascii "ok") = some (.bool false) := by
    rw [failureReply, lookup_cons, if_pos rfl]
  have hcode : get? (.object (failureFields message [])) (ascii "code") = some (.string (ascii "internal")) := by
    rw [get?, failureFields, lookup_cons, if_pos rfl]
  have herror : isRouterError (failureHost message).jsonLoads (failureText message []) = true := by
    simp only [isRouterError, hread, asObject, Option.bind_some, hok]
    rfl
  rw [mapRouterErrorStatus, if_pos herror, routerErrorCode, hread, asObject, Option.bind_some, lookup_failureReply,
    Option.bind_some, hcode]
  decide

/-- The code fits if the text with it does. -/
theorem codeFits_failureText :
    CodeFits (failureHost message) (failureText message []) ↔ 78 + message.length < maxMessageSize := by
  rw [codeFits_iff (jsonLoads_failureHost hmessage).1 (lookup_failureReply message []), lookup_failureFields,
    jsonDumps_failureHost, ← (length_failureText hmessage).2]
  simp

end Message

/-- A short message: the code is added. -/
theorem router_error_contract_short :
    ∃ r : Response, (answerDecide (failureHost (ascii "boom")) (respBuf (failureText (ascii "boom") []))
        ⟨Gateway.atStart 900, []⟩).effects = [.respond r] ∧
      KeepsContract (failureHost (ascii "boom")) (cstr (failureText (ascii "boom") [])) r.body := by
  have hmessage : IsPlainText (ascii "boom") := isPlainText_of_ascii (by decide)
  have hcstr := cstr_failureText hmessage
  refine (router_error_contract_iff (failureHost (ascii "boom")) (failureText (ascii "boom") [])
    ⟨Gateway.atStart 900, []⟩ ?_ ?_ ?_).mpr ?_
  · rw [(length_failureText hmessage).1]
    decide
  · rw [hcstr]
    exact jsonLibrary_failureHost hmessage
  · rw [hcstr, status_failureText hmessage]
    decide
  · rw [hcstr, codeFits_failureText hmessage]
    decide

/-- A message that leaves no room for the code. -/
def longMessage : List UInt8 := List.replicate 65482 97

/-- **A long error is cut.** The reply has 65535 bytes; with the code it has 25 more, and what is sent is no JSON. -/
theorem router_error_contract_long :
    (failureText longMessage []).length = 65535 ∧ JsonLibrary (failureHost longMessage) (failureText longMessage []) ∧
      mapRouterErrorStatus (failureHost longMessage).jsonLoads (failureText longMessage []) = 500 ∧
      ∃ r : Response, (answerDecide (failureHost longMessage) (respBuf (failureText longMessage []))
        ⟨Gateway.atStart 900, []⟩).effects = [.respond r] ∧ ¬IsText r.body := by
  have hmessage : IsPlainText longMessage := by
    refine isPlainText_of_ascii ?_
    rw [longMessage, List.all_replicate]
    decide
  have hcount : longMessage.length = 65482 := List.length_replicate
  obtain ⟨hshort, hlong⟩ := length_failureText hmessage
  have hlibrary := jsonLibrary_failureHost hmessage
  have hstatus := status_failureText hmessage
  have hbuffer : respBuf (failureText longMessage []) = failureText longMessage [] := by
    rw [respBuf, List.take_of_length_le, cstr_failureText hmessage]
    rw [hshort, hcount]
    decide
  obtain ⟨hread, inner, hbraces⟩ := hlibrary.writes _ _ _ (jsonLoads_failureHost hmessage).1
    (lookup_failureReply longMessage []) (jsonDumps_failureHost longMessage)
  have hcut : ¬IsText (respBuf (failureText longMessage nullCode)) := by
    refine (respBuf_written hlibrary hread hbraces).2 ?_
    rw [hlong, hcount]
    decide
  have hbody : (forwardedError (failureHost longMessage) (failureText longMessage [])).body =
      respBuf (failureText longMessage nullCode) := by
    dsimp only [forwardedError]
    rw [withIntakeErrorCode_of_none (jsonLoads_failureHost hmessage).1 (lookup_failureReply longMessage [])
      (lookup_failureFields longMessage), jsonDumps_failureHost]
    rfl
  refine ⟨by rw [hshort, hcount], hlibrary, hstatus,
    forwardedError (failureHost longMessage) (failureText longMessage []), ?_, ?_⟩
  · rw [hbuffer, effects_answerDecide (by rw [hstatus]; decide)]
    rfl
  · rw [hbody]
    exact hcut

end CGateway
