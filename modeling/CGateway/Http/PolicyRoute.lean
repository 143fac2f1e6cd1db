import CGateway.Http.ErrorCounters
import CGateway.Http.ParseRequest
import CGateway.Lib.Search

/-! # The policy complexity route

`GET /api/v1/policies/<tenant>/<policy>/complexity`. The route looks for the first `/complexity` behind the
route's beginning, copies what is before it into 128 bytes and each of its two parts into 64. So a policy
whose name begins with `complexity` ends the search early, a target of 127 bytes or more is refused, and a
part of 64 bytes or more is cut.

* `PolicyTarget` — a tenant and a policy that a path can name, and the path;
* `complexityCalls` — the pairs `handle_pipeline_complexity` has asked the Router for;
* `splitFirst_rest`, `complexityTarget_segment` — what the two searches find;
* `complexityCalls_httpStep` — whom the route is served for;
* `policy_route_iff` — when this is the tenant and the policy of the path. -/

namespace CGateway

open Bytes CString

/-- A tenant and a policy that the path of the route can name. -/
structure PolicyTarget where
  tenant : List UInt8
  policy : List UInt8
  tenant_ne_nil : tenant ≠ []
  policy_ne_nil : policy ≠ []
  tenant_no_slash : 47 ∉ tenant
  policy_no_slash : 47 ∉ policy

namespace PolicyTarget

variable (target : PolicyTarget)

/-- The path behind the route's beginning. -/
def rest : List UInt8 := target.tenant ++ 47 :: (target.policy ++ ascii "/complexity")

/-- The path. -/
def path : List UInt8 := ascii "/api/v1/policies/" ++ target.rest

/-- The name of the policy ends the search for `/complexity`. -/
def EndsEarly : Prop := ascii "complexity" <+: target.policy

instance : Decidable target.EndsEarly := inferInstanceAs (Decidable (_ <+: _))

/-- The tenant and the policy, with the slash between them, do not fit into 128 bytes. -/
def TooLong : Prop := 127 ≤ target.tenant.length + target.policy.length

instance : Decidable target.TooLong := inferInstanceAs (Decidable (_ ≤ _))

/-- Both fit into the 64 bytes they are copied to. -/
def Fits : Prop := target.tenant.length ≤ 63 ∧ target.policy.length ≤ 63

instance : Decidable target.Fits := inferInstanceAs (Decidable (_ ∧ _))

end PolicyTarget

/-- The pair of a query of `handle_pipeline_complexity`, which it sends once for the pair it is called with. -/
def Effect.complexityCall? : Effect → Option (List UInt8 × List UInt8)
  | .natsQuery (.pipelineComplexity tenantId policyId) => some (tenantId, policyId)
  | _ => none

/-- The pairs the Router was asked for. -/
def complexityCalls (effects : List Effect) : List (List UInt8 × List UInt8) :=
  effects.filterMap Effect.complexityCall?

/-! ### The route -/

/-- A GET below the route's beginning takes the route. -/
theorem routeOf_policies (rest : List UInt8) :
    routeOf (ascii "GET") (ascii "/api/v1/policies/" ++ rest) = .policies rest := by
  -- No other route begins with these seventeen bytes, so the comparisons never reach the rest.
  rfl

/-! ### The searches -/

section Target

variable (target : PolicyTarget)

/-- `strstr` finds the end of the path, or the beginning of the policy's name. -/
theorem splitFirst_rest :
    (target.EndsEarly → ∃ behind, splitFirst (ascii "/complexity") target.rest = some (target.tenant, behind)) ∧
      (¬ target.EndsEarly → splitFirst (ascii "/complexity") target.rest =
        some (target.tenant ++ 47 :: target.policy, [])) := by
  have hword : ascii "/complexity" = 47 :: ascii "complexity" := by decide
  have hskip : Skips (47 :: ascii "complexity") target.tenant := skips_of_notMem target.tenant_no_slash
  rw [PolicyTarget.rest]
  constructor
  · -- The slash before the policy and the beginning of its name are the word.
    rintro ⟨more, hmore⟩
    refine ⟨more ++ ascii "/complexity", ?_⟩
    rw [← hmore, hword, List.append_assoc, ← List.cons_append, hskip.splitFirst_eq (List.cons_ne_nil _ _)]
  · intro hearly
    -- The slash before the policy begins no match, and there is none within the policy.
    have hnot : (ascii "/complexity").isPrefixOf (47 :: (target.policy ++ ascii "/complexity")) = false := by
      rw [hword, Bool.eq_false_iff, Ne, List.isPrefixOf_iff_prefix, List.cons_prefix_cons]
      exact fun h => hearly (prefix_of_prefix_sep (by decide) h.2)
    have hskip' : Skips (47 :: ascii "complexity") target.policy := skips_of_notMem target.policy_no_slash
    have hpolicy := hskip'.splitFirst_eq (List.cons_ne_nil _ _) []
    rw [List.append_nil] at hpolicy
    rw [hword] at hnot ⊢
    rw [hskip, splitFirst_cons_of_not hnot, hpolicy]
    rfl

/-- Without a slash there is no tenant. -/
theorem complexityTarget_tenant : (complexityTarget target.tenant).1 = [] := by
  have hnone : target.tenant.dropWhile (· != 47) = [] :=
    List.dropWhile_eq_nil_iff.mpr (bne_of_sep_notMem target.tenant_no_slash)
  rw [complexityTarget, hnone]
  split <;> rfl

/-- The two parts of a whole target, each cut to 63 bytes; none of a long one. -/
theorem complexityTarget_segment (hzero : 0 ∉ target.tenant ∧ 0 ∉ target.policy) :
    (target.TooLong → complexityTarget (target.tenant ++ 47 :: target.policy) = ([], [])) ∧
      (¬ target.TooLong → complexityTarget (target.tenant ++ 47 :: target.policy) =
        (target.tenant.take 63, target.policy.take 63)) := by
  have hlength : (target.tenant ++ 47 :: target.policy).length = target.tenant.length + target.policy.length + 1 := by
    rw [List.length_append, List.length_cons, Nat.add_assoc]
  have hdrop : (target.tenant ++ 47 :: target.policy).dropWhile (· != 47) = 47 :: target.policy := by
    rw [List.dropWhile_append_of_pos (bne_of_sep_notMem target.tenant_no_slash)]
    rfl
  rw [complexityTarget, hlength, PolicyTarget.TooLong]
  constructor
  · intro hlong
    rw [if_pos (by omega)]
  · intro hlong
    rw [if_neg (by omega), hdrop, takeWhile_append_sep target.tenant_no_slash]
    show (copyField 64 target.tenant, copyField 64 target.policy) = _
    rw [copyField, copyField, cstr_of_no_zero hzero.1, cstr_of_no_zero hzero.2]

end Target

/-! ### The answers -/

/-- The Router is asked for this tenant and this policy, or the request is answered with an error and the
Router is not asked. -/
def ServedRightly (target : PolicyTarget) (effects : List Effect) : Prop :=
  complexityCalls effects = [(target.tenant, target.policy)] ∨
    complexityCalls effects = [] ∧ ∃ r, responses effects = [r] ∧ r.status.isError = true

section Served

variable {h : Host} {g : Gateway} {x : Exchange} {rq : HttpRequest} {rest segment behind : List UInt8}

/-- Where both parts are there, the Router is asked for them. -/
theorem effects_servePolicies (hsplit : splitFirst (ascii "/complexity") rest = some (segment, behind))
    (htenant : (complexityTarget segment).1 ≠ []) (hpolicy : (complexityTarget segment).2 ≠ []) (w : World) :
    ∃ r, (servePolicies h x rq rest w).effects = w.effects ++
      [.natsQuery (.pipelineComplexity (complexityTarget segment).1 (complexityTarget segment).2), .respond r,
        .spanEnd .http, .close x.fd] := by
  rw [servePolicies, hsplit]
  dsimp only
  rw [if_pos ⟨htenant, hpolicy⟩, handlePipelineComplexity, if_neg (not_or.mpr ⟨htenant, hpolicy⟩), handleMappedQuery]
  dsimp only
  -- The Router does not answer, or its answer is passed on.
  split
  · refine ⟨errorResponse .serviceUnavailable "SERVICE_UNAVAILABLE" "Router or NATS unavailable" rq.ctx, ?_⟩
    simp [finish, closeClient, endSpan, sampleRequest, sampleLatency, sendErrorResponse, sendResponse, errorResponse]
  · exact ⟨_, by simp [finish, closeClient, endSpan, sampleRequest, sampleLatency, sendResponse]; rfl⟩

/-- Where one is missing, the request is refused. -/
theorem effects_servePolicies_of_nil (hsplit : splitFirst (ascii "/complexity") rest = some (segment, behind))
    (hmissing : (complexityTarget segment).1 = []) (w : World) :
    (servePolicies h x rq rest w).effects = w.effects ++
      [.respond (errorResponse .badRequest "INVALID_REQUEST" "missing tenant_id or policy_id" rq.ctx),
        .close x.fd] := by
  rw [servePolicies, hsplit]
  dsimp only
  rw [if_neg fun hboth => hboth.1 hmissing]
  simp [closeClient, sendErrorResponse, sendResponse, errorResponse]

variable {target : PolicyTarget} (hparse : parseRequest (firstRead x) = some rq)
  (hmethod : rq.method = ascii "GET") (hpath : rq.path = target.path)
include hparse hpath

/-- A path without NUL names a tenant and a policy without NUL. -/
theorem zero_notMem_target : 0 ∉ target.tenant ∧ 0 ∉ target.policy := by
  have hzero := zero_notMem_path hparse
  rw [hpath, PolicyTarget.path, PolicyTarget.rest] at hzero
  simp only [List.mem_append, List.mem_cons, not_or] at hzero
  exact ⟨hzero.2.1, hzero.2.2.2.1⟩

include hmethod

/-- The request is served by the route. -/
theorem httpStep_policies :
    (httpStep h g x).2 = (servePolicies h x rq target.rest ⟨countRequest g, [.spanStart .http]⟩).effects := by
  rw [httpStep_of_parse hparse, serve, hmethod, hpath, PolicyTarget.path, routeOf_policies]

/-- **Whom the route is served for.** An early end or a long target is refused; otherwise the Router is
asked once, for the first 63 bytes of the tenant and of the policy. -/
theorem complexityCalls_httpStep :
    (target.EndsEarly ∨ target.TooLong → complexityCalls (httpStep h g x).2 = [] ∧ responses (httpStep h g x).2 =
          [errorResponse .badRequest "INVALID_REQUEST" "missing tenant_id or policy_id" rq.ctx]) ∧
      (¬ target.EndsEarly → ¬ target.TooLong →
        complexityCalls (httpStep h g x).2 = [(target.tenant.take 63, target.policy.take 63)]) := by
  obtain ⟨hearly, hlate⟩ := splitFirst_rest target
  obtain ⟨hlong, hshort⟩ := complexityTarget_segment target (zero_notMem_target hparse hpath)
  rw [httpStep_policies hparse hmethod hpath]
  constructor
  · intro hrefused
    -- Before an early end there is no slash, and of a long target nothing is copied.
    obtain ⟨segment, behind, hsplit, hmissing⟩ : ∃ segment behind,
        splitFirst (ascii "/complexity") target.rest = some (segment, behind) ∧ (complexityTarget segment).1 = [] := by
      by_cases hends : target.EndsEarly
      · obtain ⟨behind, hsplit⟩ := hearly hends
        exact ⟨_, _, hsplit, complexityTarget_tenant target⟩
      · exact ⟨_, _, hlate hends, by rw [hlong (hrefused.resolve_left hends)]⟩
    rw [effects_servePolicies_of_nil hsplit hmissing]
    exact ⟨rfl, rfl⟩
  · intro hends hlong
    have hcut := hshort hlong
    obtain ⟨r, heffects⟩ := @effects_servePolicies h x rq _ _ _ (hlate hends)
      (by rw [hcut]; exact fun hnil => target.tenant_ne_nil ((List.take_eq_nil_iff.mp hnil).resolve_left (by decide)))
      (by rw [hcut]; exact fun hnil => target.policy_ne_nil ((List.take_eq_nil_iff.mp hnil).resolve_left (by decide)))
      ⟨countRequest g, [.spanStart .http]⟩
    rw [heffects, hcut]
    rfl

/-- **When the route is served for the tenant and the policy of the path**, or answered with an error: not
when it is asked for a tenant or a policy of 64 bytes or more that is not refused for its length or its
name. Then it is served for what is left of them. -/
theorem policy_route_iff :
    ServedRightly target (httpStep h g x).2 ↔ target.EndsEarly ∨ target.TooLong ∨ target.Fits := by
  obtain ⟨hrefused, hcalled⟩ := complexityCalls_httpStep (h := h) (g := g) hparse hmethod hpath
  by_cases hbad : target.EndsEarly ∨ target.TooLong
  · obtain ⟨hnone, herror⟩ := hrefused hbad
    exact ⟨fun _ => by tauto, fun _ => .inr ⟨hnone, _, herror, show StatusLine.badRequest.isError = true by decide⟩⟩
  · rw [← or_assoc, or_iff_right hbad, ServedRightly]
    rw [not_or] at hbad
    rw [hcalled hbad.1 hbad.2, List.singleton_inj, Prod.mk.injEq, List.take_eq_self_iff, List.take_eq_self_iff]
    exact or_iff_left fun hnone => List.cons_ne_nil _ _ hnone.1

end Served

/-! ### Two requests -/

/-- A request of the route in one piece. -/
def askingComplexity (target : PolicyTarget) : Exchange :=
  .delivering (ascii "GET " ++ target.path ++ ascii " HTTP/1.1\r\n\r\n") none

/-- That request as it is parsed. -/
def complexityRequest (target : PolicyTarget) : HttpRequest := ⟨ascii "GET", target.path, {}, false, false, []⟩

/-- A policy of a tenant with a short name. -/
def shortTarget : PolicyTarget :=
  ⟨ascii "acme", ascii "gold", by decide, by decide, by decide, by decide⟩

/-- A policy of a tenant whose name has 64 bytes. -/
def longTarget : PolicyTarget :=
  ⟨List.replicate 64 97, ascii "gold", by decide, by decide, by decide, by decide⟩

/-- The short names are served. -/
theorem policy_route_shortTarget :
    parseRequest (firstRead (askingComplexity shortTarget)) = some (complexityRequest shortTarget) ∧
      ServedRightly shortTarget
        (httpStep (sampleHost []) (Gateway.atStart 900) (askingComplexity shortTarget)).2 := by
  have hparse : parseRequest (firstRead (askingComplexity shortTarget)) = some (complexityRequest shortTarget) := by
    decide +kernel
  exact ⟨hparse, (policy_route_iff hparse rfl rfl).mpr (.inr (.inr (by decide)))⟩

/-- **A tenant that is cut.** The request for a tenant whose name has 64 bytes is served for the tenant that
its first 63 bytes name. -/
theorem longTenant_served_for_another :
    parseRequest (firstRead (askingComplexity longTarget)) = some (complexityRequest longTarget) ∧
      complexityCalls (httpStep (sampleHost []) (Gateway.atStart 900) (askingComplexity longTarget)).2 =
        [(List.replicate 63 97, ascii "gold")] ∧
      ¬ ServedRightly longTarget
        (httpStep (sampleHost []) (Gateway.atStart 900) (askingComplexity longTarget)).2 := by
  have hfacts : parseRequest (firstRead (askingComplexity longTarget)) = some (complexityRequest longTarget) ∧
      complexityCalls (httpStep (sampleHost []) (Gateway.atStart 900) (askingComplexity longTarget)).2 =
        [(List.replicate 63 97, ascii "gold")] := by decide +kernel
  refine ⟨hfacts.1, hfacts.2, ?_⟩
  rw [ServedRightly, hfacts.2]
  rintro (hcalls | ⟨hnone, -⟩)
  · have hlength := congrArg (fun pairs => pairs.map fun pair => pair.1.length) hcalls
    exact absurd hlength (by decide)
  · exact List.cons_ne_nil _ _ hnone

end CGateway
