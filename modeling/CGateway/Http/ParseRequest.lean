import Mathlib.Data.List.Induction
import CGateway.Http.Server

/-! # What `handle_client` takes from a request

The header loop keeps the last `X-Tenant-ID` and `X-Trace-ID`, cut to the fields of the context.

* `tenantHeader` — the value of the tenant header in the bytes that were read;
* `parseRequest_tenant` — the tenant of the context is that value, cut to 63 bytes;
* `RequestContext.Fits` — the fields of a context are as short as their arrays. -/

namespace CGateway

open Bytes CString Json

/-- The header lines of a request. -/
def headerLines (received : List UInt8) : List (List UInt8) :=
  (tokens isLineEnd (splitRequest received).1).tail

/-- The line is an `X-Tenant-ID` header. -/
def isTenantLine (line : List UInt8) : Bool := (ascii "X-Tenant-ID:").isPrefixOf line

/-- The value of the `X-Tenant-ID` header, of the last one where there are several. -/
def tenantHeader (received : List UInt8) : Option (List UInt8) :=
  (((headerLines received).filter isTenantLine).getLast?).map (headerValue "X-Tenant-ID:")

/-- The header lines of a request, read one after the other. -/
theorem parseRequest_headers {received : List UInt8} {rq : HttpRequest}
    (hparse : parseRequest received = some rq) :
    rq.ctx = ((headerLines received).foldl readHeader {}).ctx ∧
      rq.hasTenantHeader = ((headerLines received).foldl readHeader {}).hasTenantHeader := by
  unfold parseRequest at hparse
  unfold headerLines
  dsimp only at hparse
  split at hparse
  · cases hparse
  · next line rest htokens =>
      split at hparse
      · rw [htokens]
        obtain rfl := Option.some.inj hparse
        exact ⟨rfl, rfl⟩
      · cases hparse

/-! ### The tenant -/

section Tenant

variable {line received : List UInt8} {rq : HttpRequest}

/-- A tenant line sets the tenant. -/
theorem readHeader_tenant (hline : isTenantLine line = true) (st : HeaderState) :
    (readHeader st line).hasTenantHeader = true ∧
      (readHeader st line).ctx.tenantId = copyField 64 (headerValue "X-Tenant-ID:" line) := by
  unfold isTenantLine at hline
  unfold readHeader
  rw [if_pos hline]
  exact ⟨rfl, rfl⟩

/-- Another line leaves it alone. -/
theorem readHeader_other (hline : isTenantLine line = false) (st : HeaderState) :
    (readHeader st line).hasTenantHeader = st.hasTenantHeader ∧
      (readHeader st line).ctx.tenantId = st.ctx.tenantId := by
  unfold isTenantLine at hline
  unfold readHeader
  rw [if_neg (by rw [hline]; decide)]
  split_ifs <;> exact ⟨rfl, rfl⟩

/-- The last tenant line decides. -/
theorem readHeaders_tenant (lines : List (List UInt8)) :
    (lines.foldl readHeader {}).hasTenantHeader = (lines.filter isTenantLine).getLast?.isSome ∧
      (lines.foldl readHeader {}).ctx.tenantId =
        (((lines.filter isTenantLine).getLast?).map
          fun line => copyField 64 (headerValue "X-Tenant-ID:" line)).getD [] := by
  -- From the back: the latest line is either the one that decides, or it changes nothing.
  induction lines using List.reverseRecOn with
  | nil => exact ⟨rfl, rfl⟩
  | append_singleton lines line ih =>
    rw [List.foldl_append, List.foldl_cons, List.foldl_nil, List.filter_append]
    cases hline : isTenantLine line with
    | true =>
      obtain ⟨hhas, hid⟩ := readHeader_tenant hline (lines.foldl readHeader {})
      rw [hhas, hid, List.filter_cons_of_pos hline]
      simp
    | false =>
      obtain ⟨hhas, hid⟩ := readHeader_other hline (lines.foldl readHeader {})
      rw [hhas, hid, List.filter_cons_of_neg (by rw [hline]; decide), List.filter_nil, List.append_nil]
      exact ih

/-- The head of a request has no NUL. -/
theorem zero_notMem_head (received : List UInt8) : (0 : UInt8) ∉ (splitRequest received).1 := by
  intro hhead
  have hbuffer : (0 : UInt8) ∈ cstr received := by
    unfold splitRequest at hhead
    dsimp only at hhead
    cases hsplit : splitFirst (ascii "\r\n\r\n") (cstr received) with
    | none => rwa [hsplit] at hhead
    | some parts =>
      rw [hsplit] at hhead
      rw [splitFirst_eq_some hsplit]
      exact List.mem_append_left _ (List.mem_append_left _ hhead)
  exact zero_notMem_cstr received hbuffer

/-- A header line has no NUL. -/
theorem zero_notMem_headerLine (hline : line ∈ headerLines received) : (0 : UInt8) ∉ line := fun hzero =>
  zero_notMem_head received (mem_of_mem_tokens (List.mem_of_mem_tail hline) hzero)

/-- The path has no NUL. -/
theorem zero_notMem_path (hparse : parseRequest received = some rq) : (0 : UInt8) ∉ rq.path := by
  intro hzero
  refine zero_notMem_head received ?_
  unfold parseRequest at hparse
  dsimp only at hparse
  split at hparse
  · cases hparse
  · next line rest htokens =>
      split at hparse
      · next method path words hwords =>
          obtain rfl := Option.some.inj hparse
          have hpath : path ∈ tokens (· == 32) line := by
            rw [hwords]
            exact List.mem_cons_of_mem _ List.mem_cons_self
          have hline : line ∈ tokens isLineEnd (splitRequest received).1 := by
            rw [htokens]
            exact List.mem_cons_self
          exact mem_of_mem_tokens hline (mem_of_mem_tokens hpath hzero)
      · cases hparse

/-- **The tenant of a request.** The header is seen when it is there, and the context holds its value,
cut to 63 bytes. -/
theorem parseRequest_tenant (hparse : parseRequest received = some rq) :
    rq.hasTenantHeader = (tenantHeader received).isSome ∧
      ∀ t, tenantHeader received = some t → rq.ctx.tenantId = t.take 63 := by
  obtain ⟨hctx, hhas⟩ := parseRequest_headers hparse
  obtain ⟨hseen, hid⟩ := readHeaders_tenant (headerLines received)
  refine ⟨?_, ?_⟩
  · rw [hhas, hseen, tenantHeader, Option.isSome_map]
  · intro t ht
    obtain ⟨line, hlast, rfl⟩ := Option.map_eq_some_iff.mp ht
    have hmem : line ∈ headerLines received := (List.mem_filter.mp (List.mem_of_getLast? hlast)).1
    have hzero : (0 : UInt8) ∉ headerValue "X-Tenant-ID:" line := by
      intro hzero
      refine zero_notMem_headerLine hmem ?_
      exact List.mem_of_mem_drop ((List.dropWhile_sublist _).mem hzero)
    rw [hctx, hid, hlast]
    simp only [Option.map_some, Option.getD_some]
    rw [copyField, cstr_of_no_zero hzero]

/-- A request without the header has no tenant. -/
theorem parseRequest_no_tenant (hparse : parseRequest received = some rq) (hnone : tenantHeader received = none) :
    rq.ctx.tenantId = [] := by
  rw [(parseRequest_headers hparse).1, (readHeaders_tenant (headerLines received)).2, Option.map_eq_none_iff.mp hnone]
  rfl

end Tenant

/-! ### The fields of a context -/

/-- The fields of a context fit into its arrays. -/
structure RequestContext.Fits (ctx : RequestContext) : Prop where
  requestId : ctx.requestId.length ≤ 63
  traceId : ctx.traceId.length ≤ 63
  tenantId : ctx.tenantId.length ≤ 63

/-- Reading a header line keeps the context within its arrays. -/
theorem readHeader_fits {st : HeaderState} (hfits : st.ctx.Fits) (line : List UInt8) :
    (readHeader st line).ctx.Fits := by
  unfold readHeader
  split_ifs
  · exact ⟨hfits.requestId, hfits.traceId, length_copyField_le 64 _⟩
  · exact ⟨hfits.requestId, length_copyField_le 64 _, hfits.tenantId⟩
  · exact hfits
  · exact hfits
  · exact hfits

/-- The context of a request fits. -/
theorem parseRequest_fits {received : List UInt8} {rq : HttpRequest}
    (hparse : parseRequest received = some rq) : rq.ctx.Fits := by
  rw [(parseRequest_headers hparse).1]
  have hlines : ∀ (lines : List (List UInt8)) (st : HeaderState), st.ctx.Fits →
      (lines.foldl readHeader st).ctx.Fits := by
    intro lines
    induction lines with
    | nil => exact fun st hfits => hfits
    | cons line lines ih => exact fun st hfits => ih _ (readHeader_fits hfits line)
  exact hlines _ _ ⟨Nat.zero_le _, Nat.zero_le _, Nat.zero_le _⟩

/-- Validation keeps the tenant, and the context within its arrays. -/
theorem validateDecideRequest_ctx {jsonLoads : List UInt8 → Option Json} {body : List UInt8}
    {ctx ctx' : RequestContext} (haccepted : validateDecideRequest jsonLoads body ctx = some ctx') :
    ctx'.tenantId = ctx.tenantId ∧ (ctx.Fits → ctx'.Fits) := by
  unfold validateDecideRequest at haccepted
  cases hload : asObject (jsonLoads body) with
  | none => rw [hload] at haccepted; cases haccepted
  | some members =>
    rw [hload] at haccepted
    dsimp only at haccepted
    split at haccepted
    · obtain rfl := Option.some.inj haccepted
      refine ⟨rfl, fun hfits => ⟨?_, hfits.traceId, hfits.tenantId⟩⟩
      cases asString (lookup members (ascii "request_id")) with
      | none => exact hfits.requestId
      | some id => exact length_copyField_le 64 id
    · cases haccepted

end CGateway
