import CGateway.Http.Frame
import CGateway.Http.DecidePath

/-! # The authentication gate over the life of a process

The gate of `POST /api/v1/messages` and `POST /api/v1/routes/decide` reads `auth_required`, which is
zero until the first call of `rate_limit_check`. The gate itself stands before that call, so it is
armed by earlier requests only.

* `armsGate` — a connection whose request gets as far as `rate_limit_check` while the flag is unset;
* `GateInv`, `gateInv_of_run` — the flag is set just when some earlier connection has armed the gate. -/

namespace CGateway

open Bytes CString Machine

/-- The connection carries a decide request without an `Authorization:` header. -/
def unauthenticatedPost (x : Exchange) : Bool :=
  (parseRequest (firstRead x)).any fun rq => rq.isDecidePost && !rq.hasAuthHeader

/-- The connection gets as far as `rate_limit_check` in a gateway whose flag is unset. -/
def armsGate (x : Exchange) : Bool := (parseRequest (firstRead x)).any (reachesLimiter false)

/-- The connection is answered with 401, once, and `handle_decide` is not entered. -/
def answeredUnauthorized (effects : List Effect) : Bool :=
  (responses effects).map (·.status.code) == [401] && !entersDecide effects

/-! ### One connection -/

section Step

variable {h : Host} {g : Gateway} {x : Exchange} {rq : HttpRequest}

/-- The flags around one connection. -/
theorem httpStep_flags (h : Host) (g : Gateway) (x : Exchange) :
    ∃ l : Ledger, l = g.ledger.reach h
        ((parseRequest (firstRead x)).any (reachesLimiter g.authRequired)) ∧
      (httpStep h g x).1.rlInitialized = l.rlInitialized ∧ (httpStep h g x).1.authRequired = l.authRequired := by
  refine ⟨_, rfl, ?_⟩
  cases hparse : parseRequest (firstRead x) with
  | none =>
    unfold httpStep handleClient serveBytes
    rw [hparse]
    split <;> exact ⟨rfl, rfl⟩
  | some rq =>
    rw [httpStep_of_parse hparse]
    exact (serve_ends h x rq ⟨countRequest g, [.spanStart .http]⟩).flags

/-- A request with one response of another status than 401 has not been refused by the gate. -/
theorem answeredUnauthorized_of_status {effects : List Effect} {r : Response}
    (hr : responses effects = [r]) (hstatus : r.status ≠ .unauthorized) : answeredUnauthorized effects = false := by
  have hcode : r.status.code ≠ 401 := by
    intro hcode
    cases hs : r.status <;> rw [hs] at hcode hstatus <;>
      first | exact hstatus rfl | exact absurd hcode (by decide)
  have hne : ([r.status.code] == [401]) = false := by simpa using hcode
  rw [answeredUnauthorized, hr, List.map_singleton, hne, Bool.false_and]

/-- Which way the branch goes shows whether the gate was closed. -/
theorem BranchEnds.answeredUnauthorized {endpoint : RlEndpoint} {rest : List Effect}
    (hends : BranchEnds h x rq endpoint g rest) :
    answeredUnauthorized (.spanStart .http :: rest) = (g.authRequired && !rq.hasAuthHeader) := by
  cases hends with
  | unauthorized hauth => rw [hauth]; rfl
  | noTenant hauth htenant =>
    rw [hauth]
    exact answeredUnauthorized_of_status rfl nofun
  | limited hauth htenant hverdict hlimited commands =>
    rw [hauth]
    refine answeredUnauthorized_of_status (responses_stopped x endpoint rq.ctx commands _) ?_
    rw [status_limitErrorResponse]
    exact nofun
  | limiterError hauth htenant hverdict hroute commands =>
    rw [hauth]
    exact answeredUnauthorized_of_status (responses_stopped x endpoint rq.ctx commands _) nofun
  | @admitted hauth htenant hverdict commands rest hends =>
    -- Whatever the answer is, `handle_decide` has been entered.
    have henters : entersDecide (.spanStart .http :: (limitCheck endpoint rq.ctx commands ++
        .enterDecide :: rest ++ [.spanEnd .http, .close x.fd])) = true := by
      simp [entersDecide, Effect.isEnterDecide]
    rw [hauth, CGateway.answeredUnauthorized, henters, Bool.not_true, Bool.and_false]

/-- **The gate in one step.** A decide request without an `Authorization:` header is answered with 401
just when the flag is set. -/
theorem httpStep_answeredUnauthorized (hpost : unauthenticatedPost x = true) :
    answeredUnauthorized (httpStep h g x).2 = g.authRequired := by
  obtain ⟨rq, hparse, hrq⟩ := (Option.any_eq_true _ _).mp hpost
  obtain ⟨hdecide, hnoAuth⟩ := Bool.and_eq_true_iff.mp hrq
  obtain ⟨rest, heffects, hends⟩ := httpStep_branchEnds (h := h) (g := g) hparse hdecide
  rw [heffects, hends.answeredUnauthorized, hnoAuth, Bool.and_true]

end Step

/-! ### The life of a process -/

/-- The invariant of the gate: the flag is set just when an earlier connection has armed it. -/
structure GateInv (past : List HttpRecord) (g : Gateway) : Prop where
  initialized : g.rlInitialized = past.any (armsGate ·.input)
  flag : g.authRequired = g.rlInitialized

section Life

variable {h : Host} {startTime : ℤ} {past : List HttpRecord} {g : Gateway}

/-- One connection keeps the invariant, in a process that requires authentication. -/
theorem GateInv.step (hrequired : envToBool h.getenv "GATEWAY_AUTH_REQUIRED" false = true)
    (inv : GateInv past g) (x : Exchange) : GateInv (recordOf (httpStep h) g x :: past) (httpStep h g x).1 := by
  obtain ⟨l, hl, hinit, hauth⟩ := httpStep_flags h g x
  cases hwas : g.rlInitialized with
  | true =>
    -- An armed gateway stays armed.
    have hsame : l = g.ledger := by
      rw [hl, Ledger.reach, Ledger.arm_of_initialized h (l := g.ledger) hwas, ite_self]
    have hany : past.any (armsGate ·.input) = true := by rw [← inv.initialized, hwas]
    refine ⟨?_, ?_⟩
    · rw [hinit, hsame, List.any_cons, hany, Bool.or_true]
      exact hwas
    · rw [hinit, hauth, hsame]
      exact inv.flag
  | false =>
    have hany : past.any (armsGate ·.input) = false := by rw [← inv.initialized, hwas]
    have hflag : g.authRequired = false := by rw [inv.flag, hwas]
    have hreach : l = g.ledger.reach h (armsGate x) := by
      rw [hl, hflag]
      rfl
    cases harms : armsGate x with
    | true =>
      obtain ⟨hset, hread⟩ := Ledger.arm_of_fresh h (l := g.ledger) hwas
      have harmed : l = g.ledger.arm h := by rw [hreach, harms]; rfl
      refine ⟨?_, ?_⟩
      · rw [hinit, harmed, hset, List.any_cons, recordOf_input, harms, Bool.true_or]
      · rw [hinit, hauth, harmed, hset, hread, hrequired]
    | false =>
      have hsame : l = g.ledger := by rw [hreach, harms]; rfl
      refine ⟨?_, ?_⟩
      · rw [hinit, hsame, List.any_cons, recordOf_input, harms, hany, Bool.false_or]
        exact hwas
      · rw [hinit, hauth, hsame]
        exact inv.flag

/-- The invariant holds in every run. -/
theorem gateInv_of_run (hrequired : envToBool h.getenv "GATEWAY_AUTH_REQUIRED" false = true)
    (hrun : Run (httpStep h) (Gateway.atStart startTime) past g) : GateInv past g :=
  hrun.invariant ⟨rfl, rfl⟩ fun _ _ x inv => inv.step hrequired x

/-- **The authentication gate, exactly.** In a process that requires authentication, every decide
request without an `Authorization:` header is answered with 401 and kept out of `handle_decide` if and
only if each of them comes after a connection that has armed the gate. -/
theorem authGate_kept_iff (hrequired : envToBool h.getenv "GATEWAY_AUTH_REQUIRED" false = true)
    (hrun : Run (httpStep h) (Gateway.atStart startTime) past g) :
    (∀ r ∈ past, unauthenticatedPost r.input = true → answeredUnauthorized r.output = true) ↔
      ∀ r earlier, r :: earlier <:+ past → unauthenticatedPost r.input = true →
        ∃ e ∈ earlier, armsGate e.input = true := by
  -- By induction on the run: the latest connection is judged by the flag it finds.
  induction hrun with
  | start => simp
  | @next past g run x ih =>
      have inv := gateInv_of_run hrequired run
      have hlast : (unauthenticatedPost x = true → answeredUnauthorized (httpStep h g x).2 = true) ↔
          (unauthenticatedPost x = true → ∃ e ∈ past, armsGate e.input = true) := by
        refine imp_congr_right fun hpost => ?_
        rw [httpStep_answeredUnauthorized hpost, inv.flag, inv.initialized, List.any_eq_true]
      constructor
      · intro hall r earlier hsuffix
        rcases List.suffix_cons_iff.mp hsuffix with heq | hsuffix
        · obtain ⟨rfl, rfl⟩ := List.cons.inj heq
          exact hlast.mp (hall (recordOf (httpStep h) g x) List.mem_cons_self)
        · exact ih.mp (fun r hr => hall r (List.mem_cons_of_mem _ hr)) r earlier hsuffix
      · intro hall r hr
        rcases List.mem_cons.mp hr with rfl | hr
        · exact hlast.mpr (hall (recordOf (httpStep h) g x) past (List.suffix_refl _))
        · exact ih.mpr (fun r earlier hs => hall r earlier (hs.trans (List.suffix_cons ..))) r hr

end Life

/-- A process that requires authentication. -/
def guardedHost : Host := sampleHost [("GATEWAY_AUTH_REQUIRED", "true")]

/-- A decide request without an `Authorization:` header. -/
def intruder : Exchange :=
  .delivering (requestText "POST /api/v1/routes/decide HTTP/1.1" "X-Tenant-ID: acme\r\n" sampleBody)
    (some sampleReply)

/-- A decision lookup, which arms the gate. -/
def lookupRequest : Exchange :=
  .delivering (requestText "GET /api/v1/routes/decide/m1 HTTP/1.1" "X-Tenant-ID: acme\r\n" []) none

/-- **The gate is open at start-up.** The first request of a process that requires authentication is
forwarded to the Router and answered with its reply, without an `Authorization:` header. -/
theorem authGate_open_at_start :
    envToBool guardedHost.getenv "GATEWAY_AUTH_REQUIRED" false = true ∧
      unauthenticatedPost intruder = true ∧
      entersDecide (httpStep guardedHost (Gateway.atStart 900) intruder).2 = true ∧
      (responses (httpStep guardedHost (Gateway.atStart 900) intruder).2).map (·.status) = [.ok] := by
  decide

/-- Behind a decision lookup the same request is answered with 401. -/
theorem authGate_kept_behind_lookup :
    ((exec (httpStep guardedHost) (Gateway.atStart 900) [lookupRequest, intruder]).1.all fun r =>
      !unauthenticatedPost r.input || answeredUnauthorized r.output) = true := by
  have hkept := (authGate_kept_iff (by decide)
    (run_exec (httpStep guardedHost) (Gateway.atStart 900) [lookupRequest, intruder])).mpr ?_
  · rw [List.all_eq_true]
    intro r hr
    cases hpost : unauthenticatedPost r.input with
    | false => rfl
    | true => exact hkept r hr hpost
  · intro r earlier hsuffix hpost
    rcases List.suffix_cons_iff.mp hsuffix with heq | hsuffix
    · obtain ⟨-, rfl⟩ := List.cons.inj heq
      exact ⟨_, List.mem_cons_self, by decide⟩
    · rcases List.suffix_cons_iff.mp hsuffix with heq | hsuffix
      · obtain ⟨rfl, -⟩ := List.cons.inj heq
        exact absurd hpost (by decide)
      · exact absurd hsuffix (by simp)

end CGateway
