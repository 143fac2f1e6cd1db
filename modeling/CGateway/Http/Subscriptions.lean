import CGateway.Http.ParseRequest
import CGateway.Http.Stores

/-! # Tenants of the event streams

A client subscribes with `GET /api/v1/messages/stream?tenant_id=…` and is told, from then on, what requests
with an `X-Tenant-ID` header bring about. Both texts are cut to 63 bytes before they are compared, so tenants
whose names differ further back are told of each other's messages.

* `queriedTenant`, `askedTenant` — the tenant that a client subscribes for, whole;
* `PoolStep`, `SentBy`, `httpStep_pool` — what a connection does to the pool, and whom it writes to;
* `askedFor`, `Known` — what the client behind a descriptor has asked for, over a run;
* `distinctFds_of_run`, `known_of_run` — the pool is made of what was asked for, one slot for a descriptor;
* `stream_isolation` — events go to clients that asked for the same 63 bytes. -/

namespace CGateway

open Bytes CString Machine EventStream

/-! ### The query -/

/-- The tenant in the query of a path, as `query_get_param` finds it with room enough. -/
def queriedTenant (path : List UInt8) : Option (List UInt8) :=
  queryGetParam path (ascii "tenant_id") (path.length + 1)

/-- A parameter that is found ends behind its equals sign. -/
theorem length_name_lt_piece {key q : List UInt8} (hamp : (38 : UInt8) ∉ key) (heq : (61 : UInt8) ∈ q)
    (hname : q.takeWhile (· != 61) = key) : key.length < (q.takeWhile (· != 38)).length := by
  have hsplit : q = key ++ 61 :: (q.dropWhile (· != 61)).drop 1 := by
    rw [← hname]
    exact eq_append_sep heq
  rw [hsplit, List.takeWhile_append_of_pos (bne_of_sep_notMem hamp), List.takeWhile_cons_of_pos (by decide),
    List.length_append, List.length_cons]
  omega

/-- A smaller buffer cuts the value. -/
theorem queryParam_take {key : List UInt8} (hamp : (38 : UInt8) ∉ key) (buflen room fuel : ℕ)
    (q : List UInt8) (hroom : q.length < room) :
    queryParam key buflen fuel q = (queryParam key room fuel q).map (·.take (buflen - 1)) := by
  induction fuel generalizing q with
  | zero => rfl
  | succ fuel ih =>
    rw [queryParam, queryParam]
    by_cases hend : q = [] ∨ 61 ∉ q
    · rw [if_pos hend, if_pos hend, Option.map_none]
    · rw [if_neg hend, if_neg hend]
      rw [not_or, not_not] at hend
      dsimp only
      by_cases hname : q.takeWhile (· != 61) = key
      · have hpiece := length_name_lt_piece hamp hend.2 hname
        have hlength : (q.takeWhile (· != 38)).length ≤ q.length := (List.takeWhile_sublist _).length_le
        rw [if_pos hname, if_pos hname, hname, if_pos hpiece, if_pos hpiece, Option.map_some, List.take_take]
        congr 2
        omega
      · rw [if_neg hname, if_neg hname]
        refine ih _ ?_
        have htail : ((q.dropWhile (· != 38)).drop 1).length ≤ q.length :=
          ((List.drop_sublist _ _).trans (List.dropWhile_sublist _)).length_le
        omega

/-- What the stream branch reads is the tenant in the query, cut to 63 bytes. -/
theorem queryGetParam_tenant (path : List UInt8) :
    queryGetParam path (ascii "tenant_id") 64 = (queriedTenant path).map (·.take 63) := by
  unfold queriedTenant queryGetParam
  have hlength : (path.dropWhile (· != 63)).length ≤ path.length := (List.dropWhile_sublist _).length_le
  split
  · rfl
  · next q hq =>
      rw [hq, List.length_cons] at hlength
      exact queryParam_take (by decide) 64 _ _ q (by omega)

/-- A parameter of a path consists of bytes of the path. -/
theorem mem_of_mem_queryParam {key : List UInt8} {buflen fuel : ℕ} {q value : List UInt8}
    (hvalue : queryParam key buflen fuel q = some value) {b : UInt8} (hb : b ∈ value) : b ∈ q := by
  induction fuel generalizing q with
  | zero => cases hvalue
  | succ fuel ih =>
    rw [queryParam] at hvalue
    split at hvalue
    · cases hvalue
    · dsimp only at hvalue
      split at hvalue
      · obtain rfl := Option.some.inj hvalue
        exact (List.dropWhile_sublist _).mem (List.mem_of_mem_drop (List.mem_of_mem_take hb))
      · exact (List.dropWhile_sublist _).mem (List.mem_of_mem_drop (ih hvalue))

/-- The tenant that a connection subscribes for. -/
def askedTenant (x : Exchange) : Option (List UInt8) :=
  match parseRequest (firstRead x) with
  | none => none
  | some rq => if routeOf rq.method rq.path = .stream then queriedTenant rq.path else none

/-! ### One connection -/

/-- The comments that a client finds on its own stream. -/
def streamComments : List (List UInt8) := [ascii ": connected\n\n", ascii ":pool_full\n\n"]

/-- What a connection does to the pool: it drops clients, or comes in as a new one. -/
inductive PoolStep (x : Exchange) (pool : SsePool) : SsePool → Prop
  | fewer {pool' : SsePool} (hfewer : Fewer pool pool') : PoolStep x pool pool'
  | subscribed (i : Fin 64) (tenantId : List UInt8) (lastWrite : ℤ) (hfree : pool i = none)
      (hasked : askedTenant x = some tenantId) :
      PoolStep x pool (Function.update pool i (some ⟨x.fd, tenantId.take 63, lastWrite⟩))

/-- Whom a connection writes to: itself, in comments, and the clients of its tenant. -/
def SentBy (x : Exchange) (pool : SsePool) : Effect → Prop
  | .sseWrite fd bytes =>
      fd = x.fd ∧ bytes ∈ streamComments ∨
        ∃ tenantId, tenantHeader (firstRead x) = some tenantId ∧ Subscribed pool (tenantId.take 63) fd
  | _ => True

/-- A private effect writes to nobody. -/
theorem Effect.IsPrivate.sentBy {e : Effect} (he : e.IsPrivate) (x : Exchange) (pool : SsePool) : SentBy x pool e := by
  cases e with
  | sseWrite fd bytes => exact he.elim
  | _ => trivial

/-- What is announced goes to the clients of the tenant in the header. -/
theorem ToldTo.sentBy {x : Exchange} {pool : SsePool} {tenantId : List UInt8} {e : Effect}
    (htold : ToldTo pool (tenantId.take 63) e) (hheader : tenantHeader (firstRead x) = some tenantId) :
    SentBy x pool e := by
  cases e with
  | sseWrite fd bytes => exact .inr ⟨tenantId, hheader, htold⟩
  | _ => trivial

section Step

variable {h : Host} {x : Exchange} {rq : HttpRequest} {w w' : World}

/-- An event drops clients at most. -/
theorem Tells.fewer {tenantId : List UInt8} {told : Option Event} {ops : List SpanOp}
    (htells : Tells x tenantId w w' told ops) : Fewer w.gateway.sseClients w'.gateway.sseClients := by
  cases htells with
  | nothing hkeeps =>
    rw [hkeeps.leaves.sseClients]
    exact .refl _
  | event event htenant hbefore hafter =>
    rw [hafter.leaves.sseClients, ← hbefore.leaves.sseClients]
    exact (sseBroadcastJson_announces htenant event.name event.data _).pool

/-- An event is for the tenant in the header of its request. -/
theorem Tells.sentBy (hparse : parseRequest (firstRead x) = some rq)
    {told : Option Event} {ops : List SpanOp} (htells : Tells x rq.ctx.tenantId w w' told ops) :
    ∃ rest, w'.effects = w.effects ++ rest ∧ ∀ e ∈ rest, SentBy x w.gateway.sseClients e := by
  cases htells with
  | nothing hkeeps =>
    obtain ⟨rest, hrest, hprivate, -⟩ := hkeeps.leaves.effects
    exact ⟨rest, hrest, fun e he => (hprivate e he).sentBy x _⟩
  | event event htenant hbefore hafter =>
    obtain ⟨tenantId, hheader⟩ : ∃ tenantId, tenantHeader (firstRead x) = some tenantId := by
      -- without a header the context has no tenant
      by_contra hnone
      rw [← Option.ne_none_iff_exists', not_not] at hnone
      exact htenant (parseRequest_no_tenant hparse hnone)
    have hctx := (parseRequest_tenant hparse).2 tenantId hheader
    obtain ⟨rest₁, hrest₁, hprivate₁, -⟩ := hbefore.leaves.effects
    obtain ⟨rest₂, hrest₂, htold⟩ := (sseBroadcastJson_announces htenant event.name event.data _).effects
    obtain ⟨rest₃, hrest₃, hprivate₃, -⟩ := hafter.leaves.effects
    refine ⟨rest₁ ++ rest₂ ++ rest₃, ?_, ?_⟩
    · rw [hrest₃, hrest₂, hrest₁]
      simp only [List.append_assoc]
    · rw [List.forall_mem_append, List.forall_mem_append]
      refine ⟨⟨fun e he => (hprivate₁ e he).sentBy x _, fun e he => ?_⟩, fun e he => (hprivate₃ e he).sentBy x _⟩
      have htold' := htold e he
      rw [hbefore.leaves.sseClients, hctx] at htold'
      exact htold'.sentBy hheader

/-- A tenant in a query has no NUL. -/
theorem zero_notMem_queriedTenant {path tenantId : List UInt8} (hpath : (0 : UInt8) ∉ path)
    (hquery : queriedTenant path = some tenantId) : (0 : UInt8) ∉ tenantId := by
  intro hmem
  refine hpath ?_
  unfold queriedTenant queryGetParam at hquery
  split at hquery
  · cases hquery
  · next q hq =>
      refine (List.dropWhile_sublist (fun b : UInt8 => b != 63)).mem ?_
      rw [hq]
      exact List.mem_cons_of_mem _ (mem_of_mem_queryParam hquery hmem)

/-- A subscription. -/
theorem serveStream_pool (hparse : parseRequest (firstRead x) = some rq)
    (hroute : routeOf rq.method rq.path = .stream) (w : World) :
    PoolStep x w.gateway.sseClients (serveStream x rq w).gateway.sseClients ∧
      ∃ rest, (serveStream x rq w).effects = w.effects ++ rest ∧ ∀ e ∈ rest, SentBy x w.gateway.sseClients e := by
  have hasked : askedTenant x = queriedTenant rq.path := by
    unfold askedTenant
    rw [hparse]
    exact if_pos hroute
  have hrefused : PoolStep x w.gateway.sseClients w.gateway.sseClients := .fewer (.refl _)
  have hcomment : ∀ bytes ∈ streamComments, SentBy x w.gateway.sseClients (.sseWrite x.fd bytes) :=
    fun _ hmem => .inl ⟨rfl, hmem⟩
  unfold serveStream
  rw [queryGetParam_tenant]
  cases hquery : queriedTenant rq.path with
  | none => exact ⟨hrefused, [_, _], List.append_assoc .., by simp [SentBy]⟩
  | some tenantId =>
    rw [hquery] at hasked
    have hzero := zero_notMem_queriedTenant (zero_notMem_path hparse) hquery
    have hfield : copyField 64 (tenantId.take 63) = tenantId.take 63 := by
      rw [copyField, cstr_of_no_zero fun hmem => hzero (List.mem_of_mem_take hmem), List.take_take, min_self]
    rw [Option.map_some]
    split
    · exact ⟨hrefused, [_, _], List.append_assoc .., by simp [SentBy]⟩
    · exact ⟨hrefused, [_, _], List.append_assoc .., by simp [SentBy]⟩
    · next tenant _ htenant =>
        obtain rfl := Option.some.inj htenant
        rcases sseRegisterClient_spec x (tenantId.take 63) w with ⟨i, hfree, hregister⟩ | hregister
        · rw [hregister, hfield]
          refine ⟨.subscribed i tenantId _ hfree hasked, _, List.append_assoc .., ?_⟩
          simp [SentBy, streamComments]
        · rw [hregister]
          refine ⟨hrefused, _, (List.append_assoc ..).trans (List.append_assoc ..), ?_⟩
          simp [SentBy, streamComments]

/-- **One connection and the pool.** -/
theorem httpStep_pool (h : Host) (x : Exchange) (g : Gateway) :
    PoolStep x g.sseClients (httpStep h g x).1.sseClients ∧ ∀ e ∈ (httpStep h g x).2, SentBy x g.sseClients e := by
  cases hparse : parseRequest (firstRead x) with
  | none =>
    unfold httpStep handleClient serveBytes
    rw [hparse]
    split
    · exact ⟨.fewer (.refl _), by simp [closeClient, SentBy]⟩
    · refine ⟨.fewer (.refl _), ?_⟩
      simp [closeClient, sendErrorResponse, sendResponse, SentBy]
  | some rq =>
    rw [httpStep_of_parse hparse]
    dsimp only
    -- one rule for all routes: what is done behind the start of the span
    suffices hserve : PoolStep x g.sseClients
          (serve h x rq ⟨countRequest g, [.spanStart .http]⟩).gateway.sseClients ∧
        ∃ rest, (serve h x rq ⟨countRequest g, [.spanStart .http]⟩).effects =
            [.spanStart .http] ++ rest ∧
          ∀ e ∈ rest, SentBy x g.sseClients e by
      obtain ⟨hpool, rest, hrest, hsent⟩ := hserve
      refine ⟨hpool, ?_⟩
      rw [hrest, List.forall_mem_append, List.forall_mem_singleton]
      exact ⟨trivial, hsent⟩
    by_cases hstream : routeOf rq.method rq.path = .stream
    · unfold serve
      rw [hstream]
      exact serveStream_pool hparse hstream ⟨countRequest g, [.spanStart .http]⟩
    · cases hregistry : (routeOf rq.method rq.path).isRegistry with
      | true =>
        obtain ⟨rest, hroute⟩ : ∃ rest, routeOf rq.method rq.path = .registry rest := by
          cases hroute : routeOf rq.method rq.path with
          | registry rest => exact ⟨rest, rfl⟩
          | _ => rw [hroute] at hregistry; cases hregistry
        unfold serve
        rw [hroute]
        have hleaves : Leaves _ ⟨countRequest g, [.spanStart .http]⟩
            (serveRegistry h x rq rest ⟨countRequest g, [.spanStart .http]⟩) :=
          leaves_serveRegistry rest _
        obtain ⟨effects, heffects, hprivate, -⟩ := hleaves.effects
        refine ⟨?_, effects, heffects, fun e he => (hprivate e he).sentBy x _⟩
        rw [hleaves.sseClients]
        exact .fewer (.refl _)
      | false =>
        obtain ⟨ops, htells⟩ := serve_tells (h := h) (x := x) hregistry hstream
          ⟨countRequest g, [.spanStart .http]⟩
        exact ⟨.fewer htells.fewer, htells.sentBy hparse⟩

end Step

/-! ### Runs -/

/-- The connection has a descriptor that no client of the pool has: the operating system gives no descriptor
twice while it is open. -/
def FreshDescriptor (r : HttpRecord) : Prop :=
  ∀ i, ∀ client ∈ r.before.sseClients i, client.fd ≠ r.input.fd

/-- What the latest connection with that descriptor has subscribed for. -/
def askedFor (fd : ℕ) (past : List HttpRecord) : Option (List UInt8) :=
  (past.find? fun r => r.input.fd == fd).bind fun r => askedTenant r.input

theorem askedFor_cons_self (r : HttpRecord) (past : List HttpRecord) :
    askedFor r.input.fd (r :: past) = askedTenant r.input := by
  rw [askedFor, List.find?_cons_of_pos (by simp), Option.bind_some]

theorem askedFor_cons_of_ne {fd : ℕ} {r : HttpRecord} (hne : fd ≠ r.input.fd) (past : List HttpRecord) :
    askedFor fd (r :: past) = askedFor fd past := by
  rw [askedFor, askedFor, List.find?_cons_of_neg (by simpa using hne.symm)]

/-- Every client of the pool is there for the tenant that was asked for. -/
def Known (past : List HttpRecord) (pool : SsePool) : Prop :=
  ∀ i client, pool i = some client →
    ∃ tenantId, askedFor client.fd past = some tenantId ∧ client.tenantId = tenantId.take 63

/-- No descriptor is in two slots. -/
def DistinctFds (pool : SsePool) : Prop :=
  ∀ i j client client', pool i = some client → pool j = some client' → client.fd = client'.fd → i = j

/-- One more connection keeps the pool known. -/
theorem PoolStep.known {r : HttpRecord} {past : List HttpRecord} {pool' : SsePool}
    (hstep : PoolStep r.input r.before.sseClients pool') (hfresh : FreshDescriptor r)
    (hknown : Known past r.before.sseClients) : Known (r :: past) pool' := by
  have hkept : ∀ i client, r.before.sseClients i = some client →
      ∃ tenantId, askedFor client.fd (r :: past) = some tenantId ∧ client.tenantId = tenantId.take 63 := by
    intro i client hclient
    rw [askedFor_cons_of_ne (hfresh i client hclient)]
    exact hknown i client hclient
  cases hstep with
  | fewer hfewer =>
    intro i client' hclient'
    obtain ⟨client, hclient, hfd, htenant⟩ := hfewer i client' hclient'
    rw [← hfd, ← htenant]
    exact hkept i client hclient
  | subscribed j tenantId lastWrite hfree hasked =>
    intro i client hclient
    by_cases hi : i = j
    · rw [hi, Function.update_self] at hclient
      obtain rfl := Option.some.inj hclient
      exact ⟨tenantId, (askedFor_cons_self r past).trans hasked, rfl⟩
    · rw [Function.update_of_ne hi] at hclient
      exact hkept i client hclient

/-- One more connection keeps the descriptors apart. -/
theorem PoolStep.distinctFds {r : HttpRecord} {pool' : SsePool}
    (hstep : PoolStep r.input r.before.sseClients pool') (hfresh : FreshDescriptor r)
    (hdistinct : DistinctFds r.before.sseClients) : DistinctFds pool' := by
  cases hstep with
  | fewer hfewer =>
    intro i j client client' hclient hclient' hsame
    obtain ⟨old, hold, hfd, -⟩ := hfewer i client hclient
    obtain ⟨old', hold', hfd', -⟩ := hfewer j client' hclient'
    exact hdistinct i j old old' hold hold' (by rw [hfd, hfd', hsame])
  | subscribed k tenantId lastWrite hfree hasked =>
    intro i j client client' hclient hclient' hsame
    by_cases hi : i = k <;> by_cases hj : j = k
    · rw [hi, hj]
    · -- a new client beside an old one
      rw [hi, Function.update_self] at hclient
      rw [Function.update_of_ne hj] at hclient'
      obtain rfl := Option.some.inj hclient
      exact absurd hsame.symm (hfresh j client' hclient')
    · rw [Function.update_of_ne hi] at hclient
      rw [hj, Function.update_self] at hclient'
      obtain rfl := Option.some.inj hclient'
      exact absurd hsame (hfresh i client hclient)
    · rw [Function.update_of_ne hi] at hclient
      rw [Function.update_of_ne hj] at hclient'
      exact hdistinct i j client client' hclient hclient' hsame

section Runs

variable {h : Host} {g₀ g : Gateway} {past : List HttpRecord}
variable (hempty : ∀ i, g₀.sseClients i = none) (run : Run (httpStep h) g₀ past g)
variable (hfresh : ∀ r ∈ past, FreshDescriptor r)
include hempty run hfresh

/-- **The pool of a run** is made of what was asked for. -/
theorem known_of_run : Known past g.sseClients := by
  induction run with
  | start =>
    intro i client hclient
    rw [hempty i] at hclient
    cases hclient
  | next run x ih =>
    rw [List.forall_mem_cons] at hfresh
    exact (httpStep_pool h x _).1.known hfresh.1 (ih hfresh.2)

/-- Its descriptors are apart. -/
theorem distinctFds_of_run : DistinctFds g.sseClients := by
  induction run with
  | start =>
    intro i j client client' hclient
    rw [hempty i] at hclient
    cases hclient
  | next run x ih =>
    rw [List.forall_mem_cons] at hfresh
    exact (httpStep_pool h x _).1.distinctFds (r := recordOf (httpStep h) _ x) hfresh.1 (ih hfresh.2)

/-- So was the pool that a connection of the run met. -/
theorem pool_before {r : HttpRecord} {earlier : List HttpRecord} (hsuffix : r :: earlier <:+ past) :
    r = recordOf (httpStep h) r.before r.input ∧ Known earlier r.before.sseClients ∧
      DistinctFds r.before.sseClients := by
  obtain ⟨hrun, hrecord⟩ := run.of_suffix hsuffix
  have hearlier : ∀ r' ∈ earlier, FreshDescriptor r' :=
    fun r' hr' => hfresh r' (hsuffix.subset (List.mem_cons_of_mem _ hr'))
  exact ⟨hrecord, known_of_run hempty hrun hearlier, distinctFds_of_run hempty hrun hearlier⟩

end Runs

/-- Two connections with different descriptors to a gateway without subscribers. -/
theorem freshDescriptor_pair {g : Gateway} (hempty : ∀ i, g.sseClients i = none) (h : Host)
    {x y : Exchange} (hne : x.fd ≠ y.fd) :
    ∀ r ∈ [recordOf (httpStep h) (httpStep h g x).1 y, recordOf (httpStep h) g x], FreshDescriptor r := by
  rw [List.forall_mem_cons, List.forall_mem_singleton]
  constructor
  · intro i client hclient
    change (httpStep h g x).1.sseClients i = some client at hclient
    have hstep := (httpStep_pool h x g).1
    generalize (httpStep h g x).1.sseClients = pool at hclient hstep
    cases hstep with
    | fewer hfewer =>
      obtain ⟨old, hold, -⟩ := hfewer i client hclient
      rw [hempty i] at hold
      cases hold
    | subscribed j tenantId lastWrite hfree hasked =>
      by_cases hi : i = j
      · rw [hi, Function.update_self] at hclient
        obtain rfl := Option.some.inj hclient
        exact hne
      · rw [Function.update_of_ne hi, hempty i] at hclient
        cases hclient
  · intro i client hclient
    change g.sseClients i = some client at hclient
    rw [hempty i] at hclient
    cases hclient

/-- Texts of which the first 63 bytes agree are the same, unless one is longer. -/
theorem eq_or_longer {a b : List UInt8} (hcut : a.take 63 = b.take 63) : a = b ∨ 64 ≤ a.length ∨ 64 ≤ b.length := by
  by_cases ha : 64 ≤ a.length
  · exact .inr (.inl ha)
  · by_cases hb : 64 ≤ b.length
    · exact .inr (.inr hb)
    · rw [List.take_of_length_le (by omega), List.take_of_length_le (by omega)] at hcut
      exact .inl hcut

/-- **Isolation of the event streams.** In every run from a gateway without subscribers, what a request writes
to a stream other than its own goes to a client that asked for a tenant with the same first 63 bytes as the
request's own: for the same tenant, unless one of the two names has 64 bytes or more. -/
theorem stream_isolation (h : Host) (g₀ : Gateway) (hempty : ∀ i, g₀.sseClients i = none) (past : List HttpRecord)
    (g : Gateway) (run : Run (httpStep h) g₀ past g) (hfresh : ∀ r ∈ past, FreshDescriptor r) (r : HttpRecord)
    (earlier : List HttpRecord) (hsuffix : r :: earlier <:+ past) (fd : ℕ) (bytes : List UInt8)
    (hsent : bytes ∈ sentTo fd r.output) :
    fd = r.input.fd ∧ bytes ∈ streamComments ∨
      ∃ subscribed tenantId, askedFor fd earlier = some subscribed ∧
        tenantHeader (firstRead r.input) = some tenantId ∧
        subscribed.take 63 = tenantId.take 63 ∧
        (subscribed = tenantId ∨ 64 ≤ subscribed.length ∨ 64 ≤ tenantId.length) := by
  obtain ⟨hrecord, hknown, -⟩ := pool_before hempty run hfresh hsuffix
  rw [hrecord, mem_sentTo] at hsent
  rcases (httpStep_pool h r.input r.before).2 _ hsent with hown | ⟨tenantId, hheader, hsub⟩
  · exact .inl hown
  · obtain ⟨i, client, hclient, rfl, htenant⟩ := hsub
    obtain ⟨subscribed, hasked, hcut⟩ := hknown i client hclient
    have hsame : subscribed.take 63 = tenantId.take 63 := hcut.symm.trans htenant
    exact .inr ⟨subscribed, tenantId, hasked, hheader, hsame, eq_or_longer hsame⟩

/-- A subscription for this tenant, on descriptor 8. -/
def subscribing (tenantId : List UInt8) : Exchange :=
  { Exchange.delivering (ascii "GET /api/v1/messages/stream?tenant_id=" ++ tenantId ++
      ascii " HTTP/1.1\r\n\r\n") none with fd := 8 }

/-- A message of this tenant with this body, on descriptor 7. -/
def puttingMessage (tenantId body : List UInt8) : Exchange :=
  .delivering (ascii "PUT /api/v1/messages/m1 HTTP/1.1\r\nX-Tenant-ID: " ++ tenantId ++
    ascii "\r\n\r\n" ++ body) none

/-- A host that reads the empty object. -/
def messageHost : Host := .ofTables [] [(ascii "\x7b\x7d", .object [])]

/-- A subscriber is told of a message of its tenant. -/
theorem stream_isolation_acme :
    let first := recordOf (httpStep messageHost) (Gateway.atStart 900) (subscribing (ascii "acme"))
    let second := recordOf (httpStep messageHost) first.after
      (puttingMessage (ascii "acme") (ascii "\x7b\x7d"))
    ascii "\x7b\x7d" ∈ sentTo 8 second.output ∧
      askedFor 8 [first] = tenantHeader (firstRead second.input) := by
  intro first second
  have hrun := run_exec (httpStep messageHost) (Gateway.atStart 900)
    [subscribing (ascii "acme"), puttingMessage (ascii "acme") (ascii "\x7b\x7d")]
  have hfresh : ∀ r ∈ [second, first], FreshDescriptor r :=
    freshDescriptor_pair (fun _ => rfl) messageHost (by decide)
  have hsent : ascii "\x7b\x7d" ∈ sentTo 8 second.output := by decide +kernel
  refine ⟨hsent, ?_⟩
  rcases stream_isolation messageHost (Gateway.atStart 900) (fun _ => rfl) _ _ hrun hfresh second [first]
    (List.suffix_refl _) 8 _ hsent with ⟨hfd, -⟩ | ⟨subscribed, tenantId, hasked, hheader, -, hsame⟩
  · exact absurd hfd (by decide)
  · have hshort : askedFor 8 [first] = some (ascii "acme") := by decide
    have hshort' : tenantHeader (firstRead second.input) = some (ascii "acme") := by decide
    rcases hsame with rfl | hlong | hlong
    · exact hasked.trans hheader.symm
    · rw [← Option.some.inj (hshort.symm.trans hasked)] at hlong
      exact absurd hlong (by decide)
    · rw [← Option.some.inj (hshort'.symm.trans hheader)] at hlong
      exact absurd hlong (by decide)

/-- **Two tenants on one stream.** Their names differ in the sixty-fourth byte. -/
theorem stream_long_names :
    let first := recordOf (httpStep messageHost) (Gateway.atStart 900)
      (subscribing (List.replicate 63 97 ++ ascii "b"))
    let second := recordOf (httpStep messageHost) first.after
      (puttingMessage (List.replicate 63 97 ++ ascii "c") (ascii "\x7b\x7d"))
    askedFor 8 [first] = some (List.replicate 63 97 ++ ascii "b") ∧
      tenantHeader (firstRead second.input) = some (List.replicate 63 97 ++ ascii "c") ∧
      ascii "\x7b\x7d" ∈ sentTo 8 second.output := by
  decide +kernel

end CGateway
