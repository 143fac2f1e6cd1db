import CGateway.Http.RouteRequest
import CGateway.Lib.JsonMembers

/-! # Two readings of a Router reply

`router_response_from_json` searches the text of a reply for its fields, `map_router_error_status` parses it. The
search sees members at any depth, the first one of a name, and only where the colon and the value follow the name as it
expects.

* `routerResponseFromJson` — the search;
* `okSeen`, `fieldSeen`, `routerResponse_text` — what it makes of a JSON document;
* `ReadingsAgree`, `router_readings_iff` — when the two readings agree. -/

namespace CGateway

open Bytes CString Json JsonDoc JsonText

/-! ### The search -/

/-- `router_response_t`, without the error context, which stays null. -/
structure RouterResponse where
  ok : Bool
  messageId : List UInt8
  resultJson : Option (List UInt8)
  errorCode : List UInt8
  errorMessage : List UInt8
  deriving DecidableEq

/-- `sscanf` into a field of zeros: a quotation mark, and then the bytes up to the next one, no more than `width`. -/
def scanQuoted (width : ℕ) : List UInt8 → List UInt8
  | 34 :: text => (text.takeWhile (· != 34)).take width
  | _ => []

/-- `strstr` for a name with its colon, and `sscanf` where it is found. -/
def scanField (pattern : List UInt8) (width : ℕ) (json : List UInt8) : List UInt8 :=
  ((behind pattern json).map (scanQuoted width)).getD []

/-- `router_response_from_json`. -/
def routerResponseFromJson (json : List UInt8) : RouterResponse :=
  let messageId := scanField (ascii "\"message_id\":") 63 json
  if contains (ascii "\"ok\":true") json || contains (ascii "\"ok\": true") json then
    ⟨true, messageId, some json, [], []⟩
  else ⟨false, messageId, none, scanField (ascii "\"code\":") 63 json, scanField (ascii "\"message\":") 255 json⟩

/-! ### What the search sees of a document -/

/-- The word for a boolean. -/
def boolWord (b : Bool) : List UInt8 := ascii (if b then "true" else "false")

def isTrueWord : JsonDoc → Bool
  | .literal text => text == boolWord true
  | _ => false

/-- The colon follows the name, the value is the word `true`, and this is between them. -/
def trueFollows (gap : List UInt8) (m : JsonMember JsonDoc) : Bool :=
  m.beforeColon == [] && m.afterColon == gap && isTrueWord m.value

def colonFollows (m : JsonMember JsonDoc) : Bool := m.beforeColon == []

/-- What is scanned of a value: a string up to its first quotation mark. -/
def scannedString (width : ℕ) : JsonDoc → List UInt8
  | .string body => (body.takeWhile (· != 34)).take width
  | _ => []

/-- What is scanned behind a colon: the value has to follow it. -/
def scannedValue (width : ℕ) (m : JsonMember JsonDoc) : List UInt8 :=
  if m.afterColon = [] then scannedString width m.value else []

/-- Some member that is written `"ok":true` or `"ok": true`. -/
def okSeen (d : JsonDoc) : Bool :=
  d.allMembers.any fun m => writesName (ascii "ok") m && (trueFollows [] m || trueFollows [32] m)

/-- The string at the first member that is written with this name and its colon. -/
def fieldSeen (key : List UInt8) (width : ℕ) (d : JsonDoc) : List UInt8 :=
  (firstSeen key colonFollows (scannedValue width) d.allMembers).getD []

/-- A word within a literal is the whole literal. -/
theorem literal_eq_true {text more : List UInt8} (htext : isLiteral text = true) (hmore : Closes more)
    (h : boolWord true <+: text ++ more) : text = boolWord true := by
  rcases List.prefix_or_prefix_of_prefix h (List.prefix_append text more) with hword | hword
  · obtain ⟨rest, rfl⟩ := hword
    cases rest with
    | nil => exact List.append_nil _
    | cons b rest =>
      -- No literal goes on behind the word.
      exfalso
      have hb := isLiteralByte_of_mem htext (List.mem_append_right (boolWord true) List.mem_cons_self)
      obtain ⟨hblank, -, hcomma, -, hbracket, hbrace⟩ := ne_of_isLiteralByte hb
      have hend : ending b = .fail := by
        rw [ending, hblank, if_neg Bool.false_ne_true, if_neg hcomma, if_neg hbrace, if_neg hbracket]
      have hrun : run (.value, []) (boolWord true) = some (.after, []) := by decide
      have hmove : (Mode.after.move b).apply [] = none := by
        rw [Mode.move, hend]
        rfl
      rw [isLiteral, Bool.and_eq_true, accepts, run_append, hrun, Option.bind_some, run_cons, hmove] at htext
      cases htext.2
  · obtain ⟨rest, hrest⟩ := hword
    cases rest with
    | nil => rw [← hrest, List.append_nil]
    | cons b rest =>
      exfalso
      rw [← hrest, List.prefix_append_right_inj] at h
      obtain ⟨more', rfl⟩ := h
      have hmem : b ∈ boolWord true := hrest ▸ List.mem_append_right text List.mem_cons_self
      have hall : ∀ c ∈ boolWord true, isLiteralByte c = true := List.all_eq_true.mp (by decide)
      exact absurd ((hall b hmem).symm.trans (hmore b rfl).1) (by decide)

theorem true_prefix_iff {d : JsonDoc} (hd : d.isWellFormed = true) {more : List UInt8} (hmore : Closes more) :
    boolWord true <+: d.text ++ more ↔ isTrueWord d = true := by
  constructor
  · intro h
    cases d with
    | literal text =>
      rw [isTrueWord, beq_iff_eq]
      exact literal_eq_true hd hmore h
    | string body => exact absurd (List.cons_prefix_cons.mp h).1 (by decide)
    | array blank items => exact absurd (List.cons_prefix_cons.mp h).1 (by decide)
    | object blank members => exact absurd (List.cons_prefix_cons.mp h).1 (by decide)
  · intro h
    cases d with
    | literal text =>
      rw [isTrueWord, beq_iff_eq] at h
      rw [h]
      exact List.prefix_append (boolWord true) more
    | string body => cases h
    | array blank items => cases h
    | object blank members => cases h

/-- Blanks in front of two texts that begin with none. -/
theorem blanks_prefix_iff (gap : List UInt8) {blanks x y : List UInt8} {a b : UInt8}
    (hgap : ∀ c ∈ gap, isBlank c = true) (hblanks : ∀ c ∈ blanks, isBlank c = true) (ha : isBlank a = false)
    (hb : isBlank b = false) : gap ++ a :: x <+: blanks ++ b :: y ↔ blanks = gap ∧ a :: x <+: b :: y := by
  induction gap generalizing blanks with
  | nil =>
    cases blanks with
    | nil => simp
    | cons c blanks =>
      have hc : a ≠ c := by
        rintro rfl
        exact absurd ((hblanks a List.mem_cons_self).symm.trans ha) (by decide)
      simp [hc]
  | cons g gap ih =>
    rw [List.forall_mem_cons] at hgap
    cases blanks with
    | nil =>
      have hg : g ≠ b := by
        rintro rfl
        exact absurd (hgap.1.symm.trans hb) (by decide)
      simp [hg]
    | cons c blanks =>
      rw [List.forall_mem_cons] at hblanks
      rw [List.cons_append, List.cons_append, List.cons_prefix_cons, ih hgap.2 hblanks.2, List.cons.injEq,
        and_assoc, eq_comm]

/-- The colon follows the name if there are no blanks between them. -/
theorem colon_prefix_iff {m : JsonMember JsonDoc} (hm : MemberWellFormed m) (tail more : List UInt8) :
    58 :: tail <+: colonText m more ↔ m.beforeColon = [] ∧ tail <+: m.afterColon ++ (m.value.text ++ more) := by
  have h := blanks_prefix_iff [] (x := tail) (y := m.afterColon ++ (m.value.text ++ more))
    (List.forall_mem_nil _) hm.beforeColon (show isBlank 58 = false from rfl)
    (show isBlank 58 = false from rfl)
  rw [List.nil_append, List.cons_prefix_cons] at h
  rw [colonText, h]
  simp

/-- The search for the word `true`. -/
theorem reads_true {gap : List UInt8} (hgap : ∀ c ∈ gap, isBlank c = true) :
    Reads (gap ++ boolWord true) (fun _ => ()) (trueFollows gap) (fun _ => ()) where
  seen_iff m more hm hmore := by
    obtain ⟨b, rest, htext, hblank, -⟩ := text_eq_cons hm.value
    have hvalue := true_prefix_iff hm.value hmore
    have hgaps := blanks_prefix_iff gap (x := ascii "rue") (y := rest ++ more) hgap hm.afterColon
      (show isBlank 116 = false from rfl) hblank
    rw [htext] at hvalue
    rw [colon_prefix_iff hm, htext]
    simp only [trueFollows, Bool.and_eq_true, beq_iff_eq, and_assoc]
    rw [← hvalue]
    exact and_congr_right fun _ => hgaps
  found_eq _ _ _ _ _ := rfl

theorem scanQuoted_of_ne {b : UInt8} (hb : b ≠ 34) (width : ℕ) (text : List UInt8) :
    scanQuoted width (b :: text) = [] := by
  unfold scanQuoted
  split
  · next h => exact absurd (List.cons.inj h).1 hb
  · rfl

theorem scanQuoted_body (width : ℕ) (body more : List UInt8) :
    scanQuoted width (34 :: (body ++ 34 :: more)) = (body.takeWhile (· != 34)).take width := by
  have htake : (body ++ 34 :: more).takeWhile (· != 34) = body.takeWhile (· != 34) := by
    induction body with
    | nil => rfl
    | cons b body ih => rw [List.cons_append, List.takeWhile_cons, List.takeWhile_cons, ih]
  rw [scanQuoted, htake]

/-- A value that is scanned where it begins. -/
theorem scanQuoted_value {d : JsonDoc} (hd : d.isWellFormed = true) (width : ℕ) (more : List UInt8) :
    scanQuoted width (d.text ++ more) = scannedString width d := by
  cases d with
  | literal text =>
    obtain ⟨b, rest, rfl⟩ := List.exists_cons_of_ne_nil (isLiteral_ne_nil hd)
    exact scanQuoted_of_ne (ne_of_isLiteralByte (isLiteralByte_of_mem hd List.mem_cons_self)).2.1 width _
  | string body =>
    rw [text, List.cons_append, List.append_assoc]
    exact scanQuoted_body width body more
  | array blank items => exact scanQuoted_of_ne (by decide) width _
  | object blank members => exact scanQuoted_of_ne (by decide) width _

/-- The search for a name and its colon. -/
theorem reads_string (width : ℕ) : Reads [] (scanQuoted width) colonFollows (scannedValue width) where
  seen_iff m more hm _ := by
    rw [colon_prefix_iff hm, colonFollows, beq_iff_eq]
    simp
  found_eq m more hm _ hseen := by
    rw [colonFollows, beq_iff_eq] at hseen
    rw [colonText, hseen]
    show scanQuoted width (m.afterColon ++ (m.value.text ++ more)) = scannedValue width m
    rw [scannedValue]
    cases hgap : m.afterColon with
    | nil => rw [List.nil_append, scanQuoted_value hm.value, if_pos rfl]
    | cons c blanks =>
      have hc := hm.afterColon c (by rw [hgap]; exact List.mem_cons_self)
      rw [if_neg (List.cons_ne_nil c blanks)]
      exact scanQuoted_of_ne (ne_of_isBlank hc).1 width _

/-! ### The reading of a document -/

section Document

variable {d : JsonDoc} {before after : List UInt8} (hd : d.isWellFormed = true)
  (hbefore : ∀ b ∈ before, isBlank b = true) (hafter : ∀ b ∈ after, isBlank b = true)

include hd hbefore hafter

theorem scanField_text {key : List UInt8} (hkey : IsKey key) (width : ℕ) :
    scanField (namePattern key []) width (before ++ (d.text ++ after)) = fieldSeen key width d := by
  rw [scanField, behind_text hkey (reads_string width) hd hbefore hafter]
  rfl

theorem contains_text (gap : List UInt8) (hgap : ∀ c ∈ gap, isBlank c = true) {key : List UInt8} (hkey : IsKey key) :
    contains (namePattern key (gap ++ boolWord true)) (before ++ (d.text ++ after))
      = d.allMembers.any fun m => writesName key m && trueFollows gap m := by
  have hfound := congrArg Option.isSome (behind_text hkey (reads_true hgap) hd hbefore hafter)
  rw [Option.isSome_map, behind, Option.isSome_map, firstSeen, Option.isSome_map] at hfound
  rw [contains, hfound, Bool.eq_iff_iff, List.find?_isSome, List.any_eq_true]

theorem ok_text :
    (contains (ascii "\"ok\":true") (before ++ (d.text ++ after)) ||
      contains (ascii "\"ok\": true") (before ++ (d.text ++ after))) = okSeen d := by
  have hkey : IsKey (ascii "ok") := ⟨by decide, by decide, 111, [107], rfl, rfl⟩
  have hnone := contains_text hd hbefore hafter [] (List.forall_mem_nil _) hkey
  have hone := contains_text hd hbefore hafter [32] (List.forall_mem_singleton.mpr rfl) hkey
  have hpatterns : ascii "\"ok\":true" = namePattern (ascii "ok") ([] ++ boolWord true) ∧
      ascii "\"ok\": true" = namePattern (ascii "ok") ([32] ++ boolWord true) := by
    decide
  rw [hpatterns.1, hpatterns.2, hnone, hone, okSeen, Bool.eq_iff_iff, Bool.or_eq_true, List.any_eq_true,
    List.any_eq_true, List.any_eq_true, ← exists_or]
  refine exists_congr fun m => ?_
  rw [← and_or_left, ← Bool.or_eq_true, Bool.and_or_distrib_left]

/-- **The reading of a document** by the search in its text. -/
theorem routerResponse_text :
    routerResponseFromJson (before ++ (d.text ++ after)) =
      if okSeen d then ⟨true, fieldSeen (ascii "message_id") 63 d, some (before ++ (d.text ++ after)), [], []⟩
      else ⟨false, fieldSeen (ascii "message_id") 63 d, none, fieldSeen (ascii "code") 63 d,
        fieldSeen (ascii "message") 255 d⟩ := by
  have hid : IsKey (ascii "message_id") := ⟨by decide, by decide, 109, ascii "essage_id", by decide, rfl⟩
  have hcode : IsKey (ascii "code") := ⟨by decide, by decide, 99, ascii "ode", by decide, rfl⟩
  have hmessage : IsKey (ascii "message") := ⟨by decide, by decide, 109, ascii "essage", by decide, rfl⟩
  have hpatterns : ascii "\"message_id\":" = namePattern (ascii "message_id") [] ∧
      ascii "\"code\":" = namePattern (ascii "code") [] ∧ ascii "\"message\":" = namePattern (ascii "message") [] := by
    decide
  rw [routerResponseFromJson, ok_text hd hbefore hafter, hpatterns.1, hpatterns.2.1, hpatterns.2.2,
    scanField_text hd hbefore hafter hid, scanField_text hd hbefore hafter hcode,
    scanField_text hd hbefore hafter hmessage]

end Document

/-! ### The two readings -/

/-- What stands at `error.code`. -/
def errorCodeAt (d : JsonDoc) : Option JsonDoc := (d.member? (ascii "error")).bind (member? (ascii "code"))

/-- The readings of a reply agree: on `ok`, and on the code of an error that has a status. -/
def ReadingsAgree (jsonLoads : List UInt8 → Option Json) (d : JsonDoc) (ok : Bool) (json : List UInt8) : Prop :=
  (routerResponseFromJson json).ok = ok ∧
    (mapRouterErrorStatus jsonLoads json ≠ 0 → (routerResponseFromJson json).ok = false ∧
        ∀ body, errorCodeAt d = some (.string body) → 92 ∉ body → body.length < 64 →
          (routerResponseFromJson json).errorCode = body)

theorem asObject_bind_lookup (v : Json) (key : List UInt8) : (asObject (some v)).bind (lookup · key) = v.get? key := by
  cases v <;> rfl

/-- A parsed reply is an error where its `ok` is false. -/
theorem isRouterError_value {jsonLoads : List UInt8 → Option Json} {number : List UInt8 → ℤ ⊕ UInt64} {d : JsonDoc}
    {json : List UInt8} (hloads : ∀ v, jsonLoads json = some v → v = d.value number) {ok : Bool}
    (hok : d.member? (ascii "ok") = some (.literal (boolWord ok))) (herror : isRouterError jsonLoads json = true) :
    ok = false := by
  rw [isRouterError] at herror
  cases hload : jsonLoads json with
  | none =>
    rw [hload] at herror
    cases herror
  | some v =>
    have hvalue : value number (.literal (boolWord ok)) = .bool ok := by cases ok <;> rfl
    rw [hload, hloads v hload, asObject_bind_lookup, get?_value, hok, Option.map_some, hvalue] at herror
    exact Bool.not_eq_true' ok |>.mp herror

/-- **The two readings of a reply agree** exactly when the members that the search sees are the ones that are parsed. -/
theorem router_readings_iff (jsonLoads : List UInt8 → Option Json) (number : List UInt8 → ℤ ⊕ UInt64) (d : JsonDoc)
    (before after : List UInt8) (ok : Bool) (hd : d.isWellFormed = true) (hbefore : ∀ b ∈ before, isBlank b = true)
    (hafter : ∀ b ∈ after, isBlank b = true) (hok : d.member? (ascii "ok") = some (.literal (boolWord ok)))
    (hloads : ∀ v, jsonLoads (before ++ (d.text ++ after)) = some v → v = d.value number) :
    ReadingsAgree jsonLoads d ok (before ++ (d.text ++ after)) ↔
      okSeen d = ok ∧
        (mapRouterErrorStatus jsonLoads (before ++ (d.text ++ after)) ≠ 0 →
          ∀ body, errorCodeAt d = some (.string body) → 92 ∉ body → body.length < 64 →
            fieldSeen (ascii "code") 63 d = body) := by
  have hresp := routerResponse_text hd hbefore hafter
  have hfalse : mapRouterErrorStatus jsonLoads (before ++ (d.text ++ after)) ≠ 0 → ok = false := by
    intro hstatus
    refine isRouterError_value hloads hok ?_
    by_contra hnot
    exact hstatus (if_neg hnot)
  -- Where the search sees a true `ok` it reads no code; then there must be no status either.
  rw [ReadingsAgree, hresp]
  cases hseen : okSeen d with
  | true =>
      refine and_congr_right fun htrue => imp_congr_right fun hstatus => ?_
      exact absurd (show true = false from htrue.trans (hfalse hstatus)) (by decide)
  | false =>
      refine and_congr_right fun _ => imp_congr_right fun _ => ?_
      exact and_iff_right rfl

/-- A document with these members, without blanks. -/
def replyDoc (members : List (String × JsonDoc)) : JsonDoc :=
  .object [] (members.map fun m => ⟨[], ascii m.1, [], [], m.2, []⟩)

theorem member?_replyDoc {members : List (String × JsonDoc)} (hplain : ∀ m ∈ members, 92 ∉ ascii m.1)
    (key : List UInt8) :
    (replyDoc members).member? key = (members.filter fun m => ascii m.1 == key).getLast?.map (·.2) := by
  have hfilter : members.filter ((fun m : JsonMember JsonDoc => unescape m.name == key) ∘
      fun m => ⟨[], ascii m.1, [], [], m.2, []⟩) = members.filter fun m => ascii m.1 == key :=
    List.filter_congr fun m hm => by rw [Function.comp_apply, unescape_of_notMem (hplain m hm)]
  rw [replyDoc, member?, lastMember?, List.filter_map, hfilter, List.getLast?_map, Option.map_map]
  rfl

/-- A parser that knows one reply. -/
def loadsReply (d : JsonDoc) (json : List UInt8) : Option Json :=
  if json = d.text then some (d.value fun _ => .inl 0) else none

/-- An error, as the Router writes it, with more members behind it. -/
def failedReply (more : List (String × JsonDoc)) : JsonDoc :=
  replyDoc (("ok", .literal (boolWord false)) :: ("error", replyDoc [("code", .string (ascii "internal"))]) :: more)

theorem router_readings_error :
    mapRouterErrorStatus (loadsReply (failedReply [])) (failedReply []).text = 500 ∧
      ReadingsAgree (loadsReply (failedReply [])) (failedReply []) false (failedReply []).text := by
  have hok : (failedReply []).member? (ascii "ok") = some (.literal (boolWord false)) :=
    member?_replyDoc (by decide) _
  have herror : (failedReply []).member? (ascii "error") = some (replyDoc [("code", .string (ascii "internal"))]) :=
    member?_replyDoc (by decide) _
  have hcode : errorCodeAt (failedReply []) = some (.string (ascii "internal")) := by
    rw [errorCodeAt, herror, Option.bind_some]
    exact member?_replyDoc (by decide) _
  have hiff := router_readings_iff (loadsReply (failedReply [])) (fun _ => .inl 0) (failedReply []) [] [] false
    (by decide +kernel) (List.forall_mem_nil _) (List.forall_mem_nil _) hok
  rw [List.nil_append, List.append_nil] at hiff
  refine ⟨by decide +kernel, (hiff ?_).mpr ⟨by decide +kernel, ?_⟩⟩
  · intro v hv
    rw [loadsReply, if_pos rfl] at hv
    exact (Option.some.inj hv).symm
  · intro _ body hbody _ _
    rw [hcode] at hbody
    cases hbody
    decide +kernel

/-- The `ok` of a step within the reply is taken for the Router's: an error is read as a success. -/
theorem router_readings_nested :
    let d := failedReply [("step", replyDoc [("ok", .literal (boolWord true))])]
    d.isWellFormed = true ∧ d.member? (ascii "ok") = some (.literal (boolWord false)) ∧
      mapRouterErrorStatus (loadsReply d) d.text = 500 ∧ (routerResponseFromJson d.text).ok = true := by
  intro d
  exact ⟨by decide +kernel, member?_replyDoc (by decide) _, by decide +kernel, by decide +kernel⟩

end CGateway
