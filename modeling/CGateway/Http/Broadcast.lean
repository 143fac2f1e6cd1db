import CGateway.Http.Gateway

/-! # Events and their subscribers

`sse_broadcast_json` goes through the slots of the pool and writes an event, in four pieces, to each client
that is registered under the tenant. A client whose connection fails on the way is dropped.

* `frame_sseBroadcastJson`, `frame_sseRegisterClient` — nothing but the pool is changed;
* `sseRegisterClient_spec` — a new client takes a free slot;
* `Fewer` — clients are dropped, and no others come in their place;
* `Announces`, `sseBroadcastJson_announces` — what is written goes to clients of the tenant;
* `sentTo` — what is written to one stream;
* `sseBroadcastJson_accepted` — every client of the tenant is written the whole event, where no write
  fails. -/

namespace CGateway

open Bytes CString

/-! ### What is kept -/

section Frame

variable {α : Type} {π : Gateway → α} (hπ : ∀ i client g, π (setSseSlot i client g) = π g)
variable {x : Exchange} (w : World)

include hπ

theorem frame_sseUnregisterFd (fd : ℕ) : π (sseUnregisterFd fd w).gateway = π w.gateway := by
  unfold sseUnregisterFd
  split
  · rfl
  · exact hπ ..

theorem frame_sseRegisterClient (tenantId : List UInt8) :
    π (sseRegisterClient x tenantId w).2.gateway = π w.gateway := by
  unfold sseRegisterClient
  dsimp only
  split
  · rfl
  · exact hπ ..

omit hπ in
/-- Writing an event changes nothing in the gateway. -/
theorem gateway_sseWrites (fd n : ℕ) (pieces : List (List UInt8)) :
    (sseWrites x fd n pieces w).2.gateway = w.gateway := by
  induction pieces generalizing n w with
  | nil => rfl
  | cons bytes rest ih =>
    rw [sseWrites]
    split
    · exact ih (w.emit (.sseWrite fd bytes)) (n + 1)
    · rfl

theorem frame_sseBroadcastSlot (tenantId event json : List UInt8) (i : Fin 64) :
    π (sseBroadcastSlot x tenantId event json i w).gateway = π w.gateway := by
  unfold sseBroadcastSlot
  split
  · rfl
  · next client _ =>
      split
      · rfl
      · dsimp only
        generalize [(ascii "event: " ++ event ++ ascii "\n").take 127, ascii "data: ", json, ascii "\n\n"] = pieces
        have hwrites := gateway_sseWrites (x := x) w client.fd 0 pieces
        split
        · next w' heq =>
            rw [heq] at hwrites
            rw [frame_sseUnregisterFd hπ, hwrites]
        · next w' heq =>
            rw [heq] at hwrites
            rw [World.update_gateway, hπ, hwrites]

/-- **A broadcast changes nothing but the pool.** -/
theorem frame_sseBroadcastJson (tenantId event json : List UInt8) :
    π (sseBroadcastJson x tenantId event json w).gateway = π w.gateway := by
  unfold sseBroadcastJson
  generalize List.finRange 64 = slots
  induction slots generalizing w with
  | nil => rfl
  | cons i slots ih => rw [List.foldl_cons, ih, frame_sseBroadcastSlot hπ]

end Frame

/-! ### The pool -/

/-- `sse_register_client`: a free slot is taken, or the client is told that there is none. -/
theorem sseRegisterClient_spec (x : Exchange) (tenantId : List UInt8) (w : World) :
    (∃ i, w.gateway.sseClients i = none ∧ sseRegisterClient x tenantId w =
        (true, ⟨setSseSlot i (some ⟨x.fd, copyField 64 tenantId, x.clock.sse i⟩) w.gateway,
          w.effects ++ [.openStream x.fd, .sseWrite x.fd (ascii ": connected\n\n")]⟩)) ∨
      sseRegisterClient x tenantId w =
        (false, ⟨w.gateway, w.effects ++ [.openStream x.fd, .sseWrite x.fd (ascii ": connected\n\n"),
          .sseWrite x.fd (ascii ":pool_full\n\n")]⟩) := by
  unfold sseRegisterClient
  dsimp only [World.emit_gateway]
  cases hi : (List.finRange 64).find? fun i => (w.gateway.sseClients i).isNone with
  | none =>
    right
    simp [World.emit]
  | some i =>
    left
    have hfree := List.find?_some hi
    refine ⟨i, Option.isNone_iff_eq_none.mp hfree, ?_⟩
    simp [World.emit, World.update]

/-- Every client of the second pool was in the first one, in the same slot. -/
def Fewer (pool pool' : SsePool) : Prop :=
  ∀ i client', pool' i = some client' →
    ∃ client, pool i = some client ∧ client.fd = client'.fd ∧ client.tenantId = client'.tenantId

theorem Fewer.refl (pool : SsePool) : Fewer pool pool := fun _ client hclient => ⟨client, hclient, rfl, rfl⟩

theorem Fewer.trans {pool pool' pool'' : SsePool} (h : Fewer pool pool') (h' : Fewer pool' pool'') :
    Fewer pool pool'' := by
  intro i client'' hclient''
  obtain ⟨client', hclient', hfd', htenant'⟩ := h' i client'' hclient''
  obtain ⟨client, hclient, hfd, htenant⟩ := h i client' hclient'
  exact ⟨client, hclient, hfd.trans hfd', htenant.trans htenant'⟩

/-- Freeing a slot. -/
theorem fewer_update_none (pool : SsePool) (i : Fin 64) : Fewer pool (Function.update pool i none) := by
  intro j client hclient
  by_cases hj : j = i
  · rw [hj, Function.update_self] at hclient
    cases hclient
  · rw [Function.update_of_ne hj] at hclient
    exact ⟨client, hclient, rfl, rfl⟩

/-- Noting the time of a write. -/
theorem fewer_update_lastWrite {pool : SsePool} {i : Fin 64} {client : SseClient}
    (hclient : pool i = some client) (lastWrite : ℤ) :
    Fewer pool (Function.update pool i (some { client with lastWrite := lastWrite })) := by
  intro j client' hclient'
  by_cases hj : j = i
  · rw [hj, Function.update_self] at hclient'
    rw [hj, ← Option.some.inj hclient']
    exact ⟨client, hclient, rfl, rfl⟩
  · rw [Function.update_of_ne hj] at hclient'
    exact ⟨client', hclient', rfl, rfl⟩

/-! ### Who is told -/

/-- A client of the tenant is registered with that descriptor. -/
def Subscribed (pool : SsePool) (tenantId : List UInt8) (fd : ℕ) : Prop :=
  ∃ i client, pool i = some client ∧ client.fd = fd ∧ client.tenantId = tenantId

theorem Fewer.subscribed {pool pool' : SsePool} (h : Fewer pool pool') {tenantId : List UInt8} {fd : ℕ}
    (hsub : Subscribed pool' tenantId fd) : Subscribed pool tenantId fd := by
  obtain ⟨i, client', hclient', hfd', htenant'⟩ := hsub
  obtain ⟨client, hclient, hfd, htenant⟩ := h i client' hclient'
  exact ⟨i, client, hclient, hfd.trans hfd', htenant.trans htenant'⟩

/-- The effect is a write to a client of the tenant, or closes its connection. -/
def ToldTo (pool : SsePool) (tenantId : List UInt8) : Effect → Prop
  | .sseWrite fd _ => Subscribed pool tenantId fd
  | .close fd => Subscribed pool tenantId fd
  | _ => False

/-- Something is written to clients of the tenant, and some of them may be dropped. -/
structure Announces (tenantId : List UInt8) (w w' : World) : Prop where
  pool : Fewer w.gateway.sseClients w'.gateway.sseClients
  effects : ∃ rest, w'.effects = w.effects ++ rest ∧
    ∀ e ∈ rest, ToldTo w.gateway.sseClients tenantId e

namespace Announces

variable {tenantId : List UInt8} {w w' w'' : World}

theorem refl (tenantId : List UInt8) (w : World) : Announces tenantId w w :=
  ⟨.refl _, [], (List.append_nil _).symm, nofun⟩

theorem trans (h : Announces tenantId w w') (h' : Announces tenantId w' w'') : Announces tenantId w w'' := by
  obtain ⟨rest, hrest, htold⟩ := h.effects
  obtain ⟨rest', hrest', htold'⟩ := h'.effects
  refine ⟨h.pool.trans h'.pool, rest ++ rest', by rw [hrest', hrest, List.append_assoc], ?_⟩
  rw [List.forall_mem_append]
  refine ⟨htold, ?_⟩
  -- who is told later was registered before
  intro e he
  have hlater := htold' e he
  cases e with
  | sseWrite fd bytes => exact h.pool.subscribed hlater
  | close fd => exact h.pool.subscribed hlater
  | _ => exact hlater.elim

end Announces

section Broadcast

variable {x : Exchange} {tenantId : List UInt8} {w : World}

/-- The pieces of an event that were written. -/
theorem effects_sseWrites (x : Exchange) (fd n : ℕ) (pieces : List (List UInt8)) (w : World) :
    ∃ written : List (List UInt8), (sseWrites x fd n pieces w).2.effects = w.effects ++ written.map (.sseWrite fd) := by
  induction pieces generalizing n w with
  | nil => exact ⟨[], (List.append_nil _).symm⟩
  | cons bytes rest ih =>
    rw [sseWrites]
    split
    · obtain ⟨written, hwritten⟩ := ih (n + 1) (w.emit (.sseWrite fd bytes))
      refine ⟨bytes :: written, ?_⟩
      rw [hwritten, World.emit_effects, List.append_assoc]
      rfl
    · exact ⟨[], (List.append_nil _).symm⟩

/-- Dropping a client. -/
theorem sseUnregisterFd_announces {fd : ℕ} (hsub : Subscribed w.gateway.sseClients tenantId fd) :
    Announces tenantId w (sseUnregisterFd fd w) := by
  unfold sseUnregisterFd
  split
  · exact .refl ..
  · next i _ =>
      refine ⟨fewer_update_none _ i, [.close fd], rfl, ?_⟩
      rw [List.forall_mem_singleton]
      exact hsub

/-- One slot. -/
theorem sseBroadcastSlot_announces (htenant : tenantId ≠ []) (event json : List UInt8) (i : Fin 64)
    (w : World) : Announces tenantId w (sseBroadcastSlot x tenantId event json i w) := by
  unfold sseBroadcastSlot
  split
  · exact .refl ..
  · next client hclient =>
      split
      · exact .refl ..
      · next hsame =>
          have hown : client.tenantId = tenantId := by
            by_contra hother
            exact hsame ⟨htenant, Ne.symm hother⟩
          have hsub : Subscribed w.gateway.sseClients tenantId client.fd := ⟨i, client, hclient, rfl, hown⟩
          dsimp only
          generalize [(ascii "event: " ++ event ++ ascii "\n").take 127, ascii "data: ", json, ascii "\n\n"] = pieces
          have hgateway := gateway_sseWrites (x := x) w client.fd 0 pieces
          have hwrites : Announces tenantId w (sseWrites x client.fd 0 pieces w).2 := by
            obtain ⟨written, hwritten⟩ := effects_sseWrites x client.fd 0 pieces w
            refine ⟨?_, _, hwritten, ?_⟩
            · rw [hgateway]
              exact .refl _
            · rw [List.forall_mem_map]
              exact fun _ _ => hsub
          split
          · next w' heq =>
              rw [heq] at hwrites hgateway
              refine hwrites.trans (sseUnregisterFd_announces ?_)
              rw [hgateway]
              exact hsub
          · next w' heq =>
              rw [heq] at hwrites hgateway
              refine hwrites.trans ⟨?_, [], (List.append_nil _).symm, nofun⟩
              rw [← hgateway] at hclient
              exact fewer_update_lastWrite hclient _

/-- **A broadcast goes to clients of its tenant.** -/
theorem sseBroadcastJson_announces (htenant : tenantId ≠ []) (event json : List UInt8) (w : World) :
    Announces tenantId w (sseBroadcastJson x tenantId event json w) := by
  unfold sseBroadcastJson
  generalize List.finRange 64 = slots
  induction slots generalizing w with
  | nil => exact .refl ..
  | cons i slots ih =>
    rw [List.foldl_cons]
    exact (sseBroadcastSlot_announces htenant event json i w).trans (ih _)

end Broadcast

/-! ### What is written -/

/-- What the effect writes to that stream. -/
def Effect.sentTo? (fd : ℕ) : Effect → Option (List UInt8)
  | .sseWrite fd' bytes => if fd' = fd then some bytes else none
  | _ => none

/-- The pieces that are written to a stream. -/
def sentTo (fd : ℕ) (effects : List Effect) : List (List UInt8) := effects.filterMap (Effect.sentTo? fd)

theorem mem_sentTo {fd : ℕ} {effects : List Effect} {bytes : List UInt8} :
    bytes ∈ sentTo fd effects ↔ .sseWrite fd bytes ∈ effects := by
  have hone : ∀ e : Effect, e.sentTo? fd = some bytes ↔ e = .sseWrite fd bytes := by
    intro e
    cases e with
    | sseWrite fd' bytes' =>
      rw [Effect.sentTo?, Option.ite_none_right_eq_some, Option.some.injEq, Effect.sseWrite.injEq]
    | _ => exact ⟨nofun, nofun⟩
  simp only [sentTo, List.mem_filterMap, hone, exists_eq_right]

/-! ### Where no write fails -/

/-- The pieces in which an event is written. -/
def eventPieces (event json : List UInt8) : List (List UInt8) :=
  [(ascii "event: " ++ event ++ ascii "\n").take 127, ascii "data: ", json, ascii "\n\n"]

/-- What is written to the client of a slot. -/
def slotWrites (tenantId event json : List UInt8) : Option SseClient → List Effect
  | none => []
  | some client =>
      if client.tenantId = tenantId then (eventPieces event json).map (.sseWrite client.fd) else []

section Accepted

variable {x : Exchange} (haccepts : ∀ fd n, x.sseAccepts fd n = true)
include haccepts

/-- All pieces of an event are written. -/
theorem sseWrites_accepted (fd n : ℕ) (pieces : List (List UInt8)) (w : World) :
    sseWrites x fd n pieces w = (true, ⟨w.gateway, w.effects ++ pieces.map (.sseWrite fd)⟩) := by
  induction pieces generalizing n w with
  | nil => rw [sseWrites, List.map_nil, List.append_nil]
  | cons bytes rest ih =>
    rw [sseWrites, if_pos (haccepts fd n), ih, World.emit_effects, List.map_cons, List.append_assoc]
    rfl

/-- One slot: the other slots are kept. -/
theorem sseBroadcastSlot_accepted {tenantId : List UInt8} (htenant : tenantId ≠ [])
    (event json : List UInt8) (i : Fin 64) (w : World) :
    (sseBroadcastSlot x tenantId event json i w).effects =
        w.effects ++ slotWrites tenantId event json (w.gateway.sseClients i) ∧
      ∀ j ≠ i, (sseBroadcastSlot x tenantId event json i w).gateway.sseClients j = w.gateway.sseClients j := by
  unfold sseBroadcastSlot
  cases hclient : w.gateway.sseClients i with
  | none => exact ⟨(List.append_nil _).symm, fun _ _ => rfl⟩
  | some client =>
    dsimp only [slotWrites]
    by_cases hown : client.tenantId = tenantId
    · have hsame : ¬ (tenantId ≠ [] ∧ tenantId ≠ client.tenantId) := fun h => h.2 hown.symm
      rw [if_neg hsame, if_pos hown, sseWrites_accepted haccepts]
      exact ⟨rfl, fun j hj => Function.update_of_ne hj ..⟩
    · rw [if_pos ⟨htenant, Ne.symm hown⟩, if_neg hown]
      exact ⟨(List.append_nil _).symm, fun _ _ => rfl⟩

/-- **Every client of the tenant is written the event**, in the order of the slots. -/
theorem sseBroadcastJson_accepted {tenantId : List UInt8} (htenant : tenantId ≠ [])
    (event json : List UInt8) (w : World) :
    (sseBroadcastJson x tenantId event json w).effects =
      w.effects ++ (List.finRange 64).flatMap fun i =>
        slotWrites tenantId event json (w.gateway.sseClients i) := by
  -- the slots that are still to come are as they were at the beginning
  have key : ∀ (slots : List (Fin 64)), slots.Nodup → ∀ w : World,
      (slots.foldl (fun w i => sseBroadcastSlot x tenantId event json i w) w).effects =
        w.effects ++ slots.flatMap fun i =>
          slotWrites tenantId event json (w.gateway.sseClients i) := by
    intro slots
    induction slots with
    | nil =>
      intro _ w
      rw [List.foldl_nil, List.flatMap_nil, List.append_nil]
    | cons i slots ih =>
      intro hnodup w
      rw [List.nodup_cons] at hnodup
      obtain ⟨heffects, hothers⟩ := sseBroadcastSlot_accepted haccepts htenant event json i w
      rw [List.foldl_cons, ih hnodup.2, heffects, List.flatMap_cons, List.append_assoc]
      refine congrArg (fun rest => w.effects ++ (_ ++ rest)) (List.flatMap_congr fun j hj => ?_)
      have hne : j ≠ i := by
        rintro rfl
        exact hnodup.1 hj
      rw [hothers j hne]
  exact key _ (List.nodup_finRange 64) w

end Accepted

end CGateway
