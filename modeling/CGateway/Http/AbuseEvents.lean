import CGateway.Abuse.Patterns
import CGateway.Http.DecidePath

/-! # What is logged as abuse

`abuse_detection_check_patterns` has no value of its own for "no abuse" and returns `ABUSE_EMPTY_PAYLOAD`,
the first of the abuse types. `handle_decide` takes every value from that one on for an abuse, and logs it.
So every request with a tenant that gets as far is logged once, whatever the detector found, and also when
it is switched off.

* `abuseEvents_handleDecide` — what a request that reaches the abuse step logs;
* `abuse_events_iff` — the requests of which only abuse is logged. -/

namespace CGateway

open Bytes

/-! ### The requests -/

/-- The detector behind the tracking of a decide request. -/
def tracked (x : Exchange) (body : List UInt8) (ctx : RequestContext) (d : AbuseDetector) :
    AbuseDetector :=
  abuseTrackRequest x.clock.abuse ctx.tenantId none x.clientIp body.length d

/-- What the pattern check answers for a decide request. -/
def requestEvent (x : Exchange) (body : List UInt8) (ctx : RequestContext) (d : AbuseDetector) :
    AbuseEventType :=
  (abuseCheckPatterns x.clock.abuse ctx.tenantId body.length (tracked x body ctx d)).1

/-- A pattern holds for a decide request. -/
def RequestMatches (x : Exchange) (body : List UInt8) (ctx : RequestContext) (d : AbuseDetector)
    (event : AbuseEventType) : Bool :=
  (examined x.clock.abuse ctx.tenantId (tracked x body ctx d)).any fun (entry, d) =>
    AbusePattern x.clock.abuse body.length entry d event

/-! ### The abuse step of `handle_decide` -/

/-- The event that an effect logs. -/
def Effect.abuseEvent? : Effect → Option AbuseEventType
  | .abuseEvent event => some event
  | _ => none

/-- The abuse events among the effects. -/
def abuseEvents (effects : List Effect) : List AbuseEventType :=
  effects.filterMap Effect.abuseEvent?

section Step

variable (h : Host) {x : Exchange} {body : List UInt8} {ctx : RequestContext} {w : World}

/-- The abuse step tracks and logs. -/
theorem effects_checkAbuse (x : Exchange) (body : List UInt8) (ctx : RequestContext) (w : World) :
    (checkAbuse x body ctx w).2.effects = w.effects ++ tracking ctx (requestEvent x body ctx w.gateway.abuse) := by
  unfold checkAbuse tracking
  split
  · rw [List.append_nil]
  · exact List.append_assoc _ [_] [_]

/-- A request that is neither empty nor held back by the Router or the Redis limiter reaches the abuse
step, on the detector as it was, and is passed on. -/
theorem handleDecide_reaches (ctx : RequestContext) (hbody : body ≠ [])
    (hrouter : routerStatus x w.gateway ≠ .active) (hredis : (redisResult x w.gateway).decision ≠ .deny) :
    ∃ w' : World, w'.effects = w.effects ++ [.enterDecide] ∧ w'.gateway.abuse = w.gateway.abuse ∧
      handleDecide h x body ctx w = forwardDecide h x body ctx (checkAbuse x body ctx w').2 := by
  -- the backpressure client and the Redis limiter are updated on the way
  let w' : World :=
    ((w.emit .enterDecide).update (setBackpressure
      (backpressureCheckRouterStatus x.clock.backpressure x.httpGet w.gateway.backpressure).2)).update
        (setRedisLimiter (redisRateLimiterCheck x.clock.redisLimiter x.staleResult w.gateway.redisLimiter).2)
  refine ⟨w', rfl, rfl, ?_⟩
  obtain ⟨g', event, habuse⟩ := checkAbuse_spec x body ctx w'
  unfold routerStatus at hrouter
  unfold redisResult at hredis
  rw [handleDecide, if_neg hbody]
  dsimp only [World.emit_gateway]
  rw [if_neg hrouter]
  unfold limitDecide
  refine (if_neg hredis).trans ?_
  -- the limiter's state in the goal is the one of `w'` only after unfolding
  erw [habuse]

/-- Behind the abuse step nothing more is logged as abuse. -/
theorem abuseEvents_forwardEnds {rest : List Effect} (hends : ForwardEnds h x body ctx rest) :
    abuseEvents rest = [] := by
  cases hends <;> rfl

/-- **What is logged of a request that reaches the abuse step**: one event if it has a tenant, the answer of
the pattern check. -/
theorem abuseEvents_handleDecide (ctx : RequestContext) (hbody : body ≠ [])
    (hrouter : routerStatus x w.gateway ≠ .active) (hredis : (redisResult x w.gateway).decision ≠ .deny) :
    ∃ new, (handleDecide h x body ctx w).effects = w.effects ++ new ∧
      abuseEvents new = if ctx.tenantId = [] then [] else [requestEvent x body ctx w.gateway.abuse] := by
  obtain ⟨w', heffects, habuse, heq⟩ := handleDecide_reaches h ctx hbody hrouter hredis
  obtain ⟨rest, hrest, hends⟩ := forwardDecide_ends h x body ctx (checkAbuse x body ctx w').2
  refine ⟨.enterDecide :: (tracking ctx (requestEvent x body ctx w.gateway.abuse) ++ rest), ?_, ?_⟩
  · rw [heq, hrest, effects_checkAbuse, heffects, habuse]
    simp
  · have hnone := abuseEvents_forwardEnds h hends
    unfold abuseEvents at hnone ⊢
    rw [List.filterMap_cons, List.filterMap_append, hnone, List.append_nil]
    unfold tracking
    dsimp only [Effect.abuseEvent?]
    split <;> rfl

end Step

/-! ### Which requests are logged rightly -/

/-- A pattern that the check reports for a request holds for it. -/
theorem requestMatches_of_event {x : Exchange} {body : List UInt8} {ctx : RequestContext}
    {d : AbuseDetector} (hevent : requestEvent x body ctx d ≠ .emptyPayload) :
    d.active = true ∧ RequestMatches x body ctx d (requestEvent x body ctx d) = true := by
  obtain ⟨hactive, entry, d', hexamined, hpattern⟩ := pattern_of_event x.clock.abuse _ hevent
  rw [tracked, active_abuseTrackRequest] at hactive
  refine ⟨hactive, ?_⟩
  rw [RequestMatches, hexamined]
  exact hpattern

/-- **What is logged as abuse.** Of a request that reaches the abuse step, an event of another type than the
empty payload is logged only if detection is on and its pattern holds. That nothing is logged unless
detection is on and some pattern holds is true of a request if and only if it has no tenant, or detection is
on and some pattern does hold. -/
theorem abuse_events_iff (h : Host) (x : Exchange) (body : List UInt8) (ctx : RequestContext)
    (w : World) (hbody : body ≠ []) (hrouter : routerStatus x w.gateway ≠ .active)
    (hredis : (redisResult x w.gateway).decision ≠ .deny) :
    ∃ new, (handleDecide h x body ctx w).effects = w.effects ++ new ∧
      (∀ event ∈ abuseEvents new, event ≠ .emptyPayload →
        w.gateway.abuse.active = true ∧ RequestMatches x body ctx w.gateway.abuse event = true) ∧
      ((abuseEvents new ≠ [] → w.gateway.abuse.active = true ∧
          ∃ event, RequestMatches x body ctx w.gateway.abuse event = true) ↔
        ctx.tenantId = [] ∨ w.gateway.abuse.active = true ∧
          ∃ event, RequestMatches x body ctx w.gateway.abuse event = true) := by
  obtain ⟨new, heffects, hevents⟩ := abuseEvents_handleDecide h ctx hbody hrouter hredis
  refine ⟨new, heffects, ?_, ?_⟩
  · intro event hevent hother
    rw [hevents] at hevent
    split at hevent
    · exact absurd hevent List.not_mem_nil
    · obtain rfl := List.mem_singleton.mp hevent
      exact requestMatches_of_event hother
  · rw [hevents]
    by_cases htenant : ctx.tenantId = []
    · simp [htenant]
    · simp [htenant]

/-- The default configuration with detection on, before the first request. -/
def watchedWorld : World := ⟨setAbuse (abuseInit 900 enabledAbuseConfig .atStart) (.atStart 900), []⟩

/-- A request of two bytes is logged, and it is an empty payload. -/
theorem abuse_events_empty_payload :
    ∃ new, (handleDecide (sampleHost []) (.delivering [] none) (ascii "ok")
        { tenantId := ascii "acme" } watchedWorld).effects = watchedWorld.effects ++ new ∧
      (abuseEvents new ≠ [] → watchedWorld.gateway.abuse.active = true ∧
        ∃ event, RequestMatches (.delivering [] none) (ascii "ok") { tenantId := ascii "acme" }
          watchedWorld.gateway.abuse event = true) := by
  obtain ⟨new, heffects, -, hiff⟩ := abuse_events_iff (sampleHost []) (.delivering [] none)
    (ascii "ok") { tenantId := ascii "acme" } watchedWorld (by decide) (by decide) (by decide)
  exact ⟨new, heffects, hiff.mpr (.inr ⟨by decide, .emptyPayload, by decide⟩)⟩

/-- An ordinary request of a tenant, the first one: no pattern holds, and an abuse event is logged. With
detection off the same event is logged. -/
theorem abuse_events_ordinary_request :
    let x := Exchange.delivering [] none
    let ctx : RequestContext := { tenantId := ascii "acme" }
    let off : World := ⟨.atStart 900, []⟩
    (watchedWorld.gateway.abuse.active = true ∧
      (∀ event, RequestMatches x sampleBody ctx watchedWorld.gateway.abuse event = false) ∧
      abuseEvents (handleDecide (sampleHost []) x sampleBody ctx watchedWorld).effects =
        [.emptyPayload]) ∧
    off.gateway.abuse.active = false ∧
      abuseEvents (handleDecide (sampleHost []) x sampleBody ctx off).effects = [.emptyPayload] := by
  refine ⟨⟨by decide, ?_, by decide⟩, by decide, by decide⟩
  intro event
  cases event <;> decide

end CGateway
