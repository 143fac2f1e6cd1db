import CGateway.Ipc.FrameLoop

/-! # The event loop of the IPC server

`ipc_server_run` polls the sockets, accepts, serves the readable clients in the order of their slots, and polls again;
`ipc_server_destroy` closes what is left.

* `ipcServerRun`, `ipcServerDestroy` — the loop and the end, made of events of the server (`reached_of_loop`);
* `KeepsOpen`, `IpcInv.step_open` — what an event does to the open and to the closed connections;
* `descriptors_closed` — what is open sits in a slot, what is closed is left alone, and nothing survives the server. -/

namespace CGateway

open Machine

variable {σ : Type} {accepts : ℕ → ℕ} {w₀ w w' : IpcWorld σ} {slot : Fin ipcMaxConnections} {d : ℕ}

/-- One call of `poll`. -/
inductive PollResult where
  /-- `EINTR`, or the timeout. -/
  | nothing
  | failed
  /-- What `accept` will do where the listening socket is readable, and `recv` on the descriptors that are. -/
  | ready (listen : Option Bool) (revents : ℕ → Option RecvResult)

/-- The descriptors that are polled behind the listening socket. -/
def pollFds (w : IpcWorld σ) : List ℕ :=
  ((List.finRange ipcMaxConnections).filter fun i => (w.server.clients i).active).map fun i => (w.server.clients i).fd

/-- The loop's look at one slot: is it active, was its descriptor polled, and is it readable? -/
def ipcServeSlot (accepts : ℕ → ℕ) (fds : List ℕ) (revents : ℕ → Option RecvResult) (w : IpcWorld σ)
    (slot : Fin ipcMaxConnections) : IpcWorld σ :=
  if (w.server.clients slot).active ∧ (w.server.clients slot).fd ∈ fds then
    match revents (w.server.clients slot).fd with
    | some result => ipcHandleClientData accepts w slot result
    | none => w
  else w

/-- `ipc_server_run`, until `ipc_server_stop` or a failed `poll`; the sockets are polled before the accept. -/
def ipcServerRun (accepts : ℕ → ℕ) : List PollResult → IpcWorld σ → IpcWorld σ
  | [], w | .failed :: _, w => w
  | .nothing :: polls, w => ipcServerRun accepts polls w
  | .ready listen revents :: polls, w =>
      ipcServerRun accepts polls ((List.finRange ipcMaxConnections).foldl (ipcServeSlot accepts (pollFds w) revents)
        ((listen.map (ipcAcceptClient w)).getD w))

/-- `ipc_server_destroy`, as far as the clients go. -/
def ipcServerDestroy (w : IpcWorld σ) : IpcWorld σ :=
  (List.finRange ipcMaxConnections).foldl (fun w slot => ipcCloseClient w slot .disconnected) w

/-! ### The loop is made of events -/

/-- From `w₀` events lead to `w`. -/
def Reached (accepts : ℕ → ℕ) (w₀ w : IpcWorld σ) : Prop := ∃ past, Run (ipcStep accepts) w₀ past w

theorem Reached.next (h : Reached accepts w₀ w) (e : IpcEvent) : Reached accepts w₀ (ipcStep accepts w e).1 :=
  h.elim fun _ run => ⟨_, run.next e⟩

theorem reached_of_loop (h : Reached accepts w₀ w) (polls : List PollResult) :
    Reached accepts w₀ (ipcServerRun accepts polls w) := by
  induction polls generalizing w with
  | nil => exact h
  | cons poll polls ih =>
    cases poll with
    | nothing => exact ih h
    | failed => exact h
    | ready listen revents =>
      have haccept : Reached accepts w₀ ((listen.map (ipcAcceptClient w)).getD w) := by
        cases listen with
        | none => exact h
        | some granted => exact h.next (.acceptClient granted)
      refine ih (List.foldlRecOn _ _ haccept fun w' h' slot _ => ?_)
      rw [ipcServeSlot]
      split_ifs with hserved
      · cases revents (w'.server.clients slot).fd with
        | none => exact h'
        | some result =>
          have hnext := h'.next (.clientData slot result)
          rwa [ipcStep, if_pos hserved.1] at hnext
      · exact h'

theorem reached_of_destroy (h : Reached accepts w₀ w) : Reached accepts w₀ (ipcServerDestroy w) :=
  List.foldlRecOn _ _ h fun _ h' slot _ => h'.next (.closeClient slot)

/-! ### Open and closed connections -/

/-- The slot is active with connection `d`. -/
def IpcWorld.Holds (w : IpcWorld σ) (slot : Fin ipcMaxConnections) (d : ℕ) : Prop :=
  (w.server.clients slot).active = true ∧ (w.server.clients slot).fd = d

/-- Every open connection sits in an active slot. -/
def OpenInSlots (w : IpcWorld σ) : Prop := ∀ d < w.next, (w.conns d).closed = none → ∃ slot, w.Holds slot d

/-- Open connections stay in slots, and closed ones stay as they are. -/
def KeepsOpen (w w' : IpcWorld σ) : Prop :=
  (OpenInSlots w → OpenInSlots w') ∧ ∀ d, (w.conns d).closed ≠ none → w'.conns d = w.conns d

theorem KeepsOpen.refl (w : IpcWorld σ) : KeepsOpen w w := ⟨id, fun _ _ => rfl⟩

/-- A change at one active slot, which keeps its connection or has closed it. -/
theorem IpcInv.keepsOpen (inv : IpcInv w) (hholds : w.Holds slot d) (htouch : OnlyTouches slot d w w')
    (hslot : w'.Holds slot d ∨ (w'.conns d).closed ≠ none) : KeepsOpen w w' := by
  refine ⟨fun hopen c hc hnone => ?_, fun c hclosed => htouch.conns c fun heq => ?_⟩
  · by_cases heq : c = d
    · subst heq
      exact hslot.elim (fun hstays => ⟨slot, hstays⟩) (absurd hnone)
    · rw [htouch.conns c heq] at hnone
      obtain ⟨i, hi⟩ := hopen c (htouch.next ▸ hc) hnone
      refine ⟨i, ?_⟩
      rwa [IpcWorld.Holds, htouch.clients i fun his => heq (hi.2.symm.trans (his ▸ hholds.2))]
  · exact hclosed (heq ▸ hholds.2 ▸ inv.opened slot hholds.1)

theorem IpcInv.keepsOpen_close (inv : IpcInv w) : KeepsOpen w (ipcCloseClient w slot .disconnected) := by
  by_cases hactive : (w.server.clients slot).active = true
  · obtain ⟨htouch, -, hconn⟩ := ipcCloseClient_spec (rfl : ipcCloseClient w slot .disconnected = _) hactive
    exact inv.keepsOpen ⟨hactive, rfl⟩ htouch (.inr (by rw [hconn]; nofun))
  · rw [ipcCloseClient, if_neg hactive]
    exact .refl w

theorem IpcInv.keepsOpen_data (inv : IpcInv w) (hactive : (w.server.clients slot).active = true) (result : RecvResult) :
    KeepsOpen w (ipcHandleClientData accepts w slot result) := by
  cases result with
  | wouldBlock => exact .refl w
  | failed => exact inv.keepsOpen_close
  | data available =>
    by_cases hne : available = []
    · rw [hne, ipcHandleClientData, if_pos (by simp)]
      exact inv.keepsOpen_close
    · rw [inv.handleClientData_data accepts hactive hne]
      generalize available.take (ipcMaxFrameSize - (w.server.clients slot).recvLen) = chunk
      obtain ⟨hloop, -⟩ := inv.chunk_spec accepts hactive rfl chunk
      obtain ⟨hbuffer, -⟩ := ipcBufferBytes_spec (rfl : ipcBufferBytes w slot chunk = _) rfl
      refine inv.keepsOpen ⟨hactive, rfl⟩ (hbuffer.trans hloop.touches) ?_
      cases hstatus : (StreamParser.parse ipcReference ((w.server.clients slot).buffered ++ chunk)).status with
      | waiting rest =>
        obtain ⟨hstill, hfd, -⟩ := hloop.waiting rest hstatus
        exact .inl ⟨hstill, hfd⟩
      | rejected =>
        have hclosed := (hloop.rejected hstatus).2
        exact .inr fun hnone => by cases hclosed.symm.trans hnone

theorem IpcInv.keepsOpen_accept (inv : IpcInv w) (granted : Bool) : KeepsOpen w (ipcAcceptClient w granted) := by
  have hfresh : (w.conns w.next).closed = none := by rw [inv.fresh w.next le_rfl]; rfl
  have hold : ∀ {d}, d < w.next + 1 → d ≠ w.next → d < w.next := by omega
  rw [ipcAcceptClient]
  split
  · cases hfind : (List.finRange ipcMaxConnections).find? fun i => !(w.server.clients i).active with
    | none =>
      -- The table is full: the new connection is closed at once.
      simp only [hfind]
      refine ⟨fun hopen d hd hnone => ?_,
        fun d hclosed => Function.update_of_ne (by rintro rfl; exact hclosed hfresh) ..⟩
      by_cases heq : d = w.next
      · simp [heq] at hnone
      · rw [setConn_conns, Function.update_of_ne heq] at hnone
        exact hopen d (hold hd heq) hnone
    | some free =>
      simp only [hfind]
      refine ⟨fun hopen d hd hnone => ?_, fun _ _ => rfl⟩
      by_cases heq : d = w.next
      · exact ⟨free, by simp [IpcWorld.Holds, heq]⟩
      · obtain ⟨i, hi⟩ := hopen d (hold hd heq) hnone
        have hne : i ≠ free := by
          rintro rfl
          simpa [hi.1] using List.find?_some hfind
        exact ⟨i, by simpa [IpcWorld.Holds, Function.update_of_ne hne] using hi⟩
  · exact .refl w

/-- Every event keeps the open connections in slots and the closed ones as they are. -/
theorem IpcInv.step_open (inv : IpcInv w) (e : IpcEvent) : KeepsOpen w (ipcStep accepts w e).1 := by
  cases e with
  | acceptClient granted => exact inv.keepsOpen_accept granted
  | closeClient slot => exact inv.keepsOpen_close
  | clientData slot result =>
    rw [ipcStep]
    split
    · next hactive => exact inv.keepsOpen_data hactive result
    · exact .refl w

theorem Reached.keepsOpen (h : Reached accepts w w') (inv : IpcInv w) : IpcInv w' ∧ KeepsOpen w w' := by
  obtain ⟨past, run⟩ := h
  refine run.invariant (P := fun _ w' => IpcInv w' ∧ KeepsOpen w w') ⟨inv, .refl w⟩ ?_
  rintro _ w' e ⟨inv', hopen, hclosed⟩
  obtain ⟨hopen', hclosed'⟩ := @IpcInv.step_open _ accepts _ inv' e
  exact ⟨inv'.step accepts e, hopen' ∘ hopen, fun d hd => (hclosed' d (hclosed d hd ▸ hd)).trans (hclosed d hd)⟩

/-- A slot that is closed, or not active before, is not active behind some closings. -/
theorem active_foldl_close {slots : List (Fin ipcMaxConnections)} {i : Fin ipcMaxConnections}
    (h : i ∈ slots ∨ (w.server.clients i).active = false) :
    ((slots.foldl (fun w slot => ipcCloseClient w slot .disconnected) w).server.clients i).active = false := by
  induction slots generalizing w with
  | nil => simpa using h
  | cons slot slots ih =>
    by_cases hi : i = slot
    · exact ih (.inr (hi ▸ active_ipcCloseClient ..))
    · refine ih (h.imp (fun hmem => (List.mem_cons.mp hmem).resolve_left hi) fun hoff => ?_)
      dsimp only [ipcCloseClient]
      split
      · simpa [Function.update_of_ne hi] using hoff
      · exact hoff

/-- **The life of a connection.** Wherever the loop gets to: the open connections are those of the active slots, one
slot for each; a closed one stays as it is, with nothing more received, handled, sent or closed on it, however the
loop goes on; and once the server is destroyed every connection it was ever given is closed. -/
theorem descriptors_closed (accepts : ℕ → ℕ) (handler : Option (σ → IpcMessage → IpcMessage × σ)) (userData : σ)
    (polls : List PollResult) : let w := ipcServerRun accepts polls (ipcServerInit handler userData)
    (∀ d, (d < w.next ∧ (w.conns d).closed = none) ↔ ∃! slot, w.Holds slot d) ∧
      (∀ later d, (w.conns d).closed ≠ none → (ipcServerRun accepts later w).conns d = w.conns d ∧
        (ipcServerDestroy (ipcServerRun accepts later w)).conns d = w.conns d) ∧
      ∀ d < (ipcServerDestroy w).next, ((ipcServerDestroy w).conns d).closed ≠ none := by
  have hstart : OpenInSlots (ipcServerInit handler userData) := fun d hd => absurd hd (Nat.not_lt_zero d)
  have hreached := @reached_of_loop σ accepts _ (ipcServerInit handler userData) ⟨[], .start⟩ polls
  obtain ⟨inv, hkeeps, -⟩ := hreached.keepsOpen (ipcInv_init handler userData)
  obtain ⟨-, hend, -⟩ := (reached_of_destroy hreached).keepsOpen (ipcInv_init handler userData)
  refine ⟨fun d => ⟨fun ⟨hd, hnone⟩ => ?_, fun ⟨slot, hslot, _⟩ => ?_⟩, fun later d hclosed => ?_, fun d hd hnone => ?_⟩
  · obtain ⟨slot, hslot⟩ := hkeeps hstart d hd hnone
    exact ⟨slot, hslot, fun i hi => inv.fd_inj i slot hi.1 hslot.1 (hi.2.trans hslot.2.symm)⟩
  · exact hslot.2 ▸ ⟨inv.fd_lt slot hslot.1, inv.opened slot hslot.1⟩
  · generalize ipcServerRun accepts polls _ = w at inv hclosed ⊢
    have hlater := @reached_of_loop σ accepts w w ⟨[], .start⟩ later
    exact ⟨(hlater.keepsOpen inv).2.2 d hclosed, ((reached_of_destroy hlater).keepsOpen inv).2.2 d hclosed⟩
  · obtain ⟨slot, hslot⟩ := hend hstart d hd hnone
    exact absurd hslot.1 (by rw [ipcServerDestroy, active_foldl_close (.inl (List.mem_finRange slot))]; nofun)

end CGateway
