import CGateway.Ipc.Reassembly
import CGateway.Lib.WhileLoop

/-! # The passes of the frame loop, and room in the receive buffer

The loop of `ipc_handle_client_data` as passes over the world. A pass that goes on has removed a frame,
and a frame that decodes is no shorter than its header; so the bytes in the buffer pay for the passes.
Where the loop is left with the client still active, a header or the rest of a frame is missing, and a
frame fits in the buffer; so the next `recv` has room.

* `ipcFrameTurn` — one pass, of which `ipcFrameLoop` is the loop (`frameLoop_eq_of_returns`);
* `frameTurn_goesOn`, `frameTurn_ends` — what a pass leaves behind;
* `ipc_recv_has_room` — the passes and the room, in every run of the server. -/

namespace CGateway

open Bytes Machine WhileLoop

/-- The length `recv` is called with: the rest of the buffer. -/
def IpcClient.recvSpace (c : IpcClient) : ℕ := ipcMaxFrameSize - c.recvLen

/-- The length field at the front of the buffer. -/
def IpcClient.announcedLen (c : IpcClient) : ℕ := beNat (load c.recvBuf 0 4)

section Turns

variable {σ : Type}

/-- One pass of the loop of `ipc_handle_client_data`: the test and, where it holds, the body. -/
def ipcFrameTurn (accepts : ℕ → ℕ) (slot : Fin ipcMaxConnections) (w : IpcWorld σ) : Turn (IpcWorld σ) :=
  let client := w.server.clients slot
  if client.recvLen < ipcHeaderSize then .ends w
  else
    let frameLen := beNat (load client.recvBuf 0 4)
    if frameLen > ipcMaxFrameSize then .ends (ipcCloseClient w slot .malformed)
    else if client.recvLen < frameLen then .ends w
    else match ipcDecodeMessage (load client.recvBuf 0 frameLen) with
      | .error err => .ends (ipcRefuseFrame accepts w slot err)
      | .ok req => .goesOn (ipcServeRequest accepts w slot frameLen req)

variable {accepts : ℕ → ℕ} {slot : Fin ipcMaxConnections} {w w' : IpcWorld σ} {n : ℕ}

/-- `ipcFrameLoop` takes a pass and, where it goes on, the others. -/
theorem frameLoop_succ (fuel : ℕ) (w : IpcWorld σ) :
    ipcFrameLoop accepts slot (fuel + 1) w =
      match ipcFrameTurn accepts slot w with
      | .ends w' => w'
      | .goesOn w' => ipcFrameLoop accepts slot fuel w' := by
  rw [ipcFrameLoop, ipcFrameTurn]
  simp only
  by_cases hsize : (w.server.clients slot).recvLen < ipcHeaderSize
  · rw [if_pos hsize, if_pos hsize]
  · rw [if_neg hsize, if_neg hsize]
    by_cases hmax : beNat (load (w.server.clients slot).recvBuf 0 4) > ipcMaxFrameSize
    · rw [if_pos hmax, if_pos hmax]
    · rw [if_neg hmax, if_neg hmax]
      by_cases hlen : (w.server.clients slot).recvLen < beNat (load (w.server.clients slot).recvBuf 0 4)
      · rw [if_pos hlen, if_pos hlen]
      · rw [if_neg hlen, if_neg hlen]
        cases ipcDecodeMessage (load (w.server.clients slot).recvBuf 0
            (beNat (load (w.server.clients slot).recvBuf 0 4))) with
        | error err => rfl
        | ok req => rfl

/-- **The model's loop is the loop of these passes**, as long as it may take them all. -/
theorem frameLoop_eq_of_returns (h : Returns (ipcFrameTurn accepts slot) w n w') {fuel : ℕ} (hfuel : n ≤ fuel) :
    ipcFrameLoop accepts slot fuel w = w' := by
  induction h generalizing fuel with
  | ends hturn =>
    obtain ⟨fuel, rfl⟩ := Nat.exists_eq_add_of_le' hfuel
    rw [frameLoop_succ, hturn]
  | goesOn hturn _ ih =>
    obtain ⟨fuel, rfl⟩ := Nat.exists_eq_add_of_le' (Nat.le_of_add_left_le hfuel)
    rw [frameLoop_succ, hturn]
    exact ih (Nat.le_of_add_le_add_right hfuel)

/-- A pass that goes on has taken at least a header from the buffer. -/
theorem frameTurn_goesOn (h : ipcFrameTurn accepts slot w = .goesOn w') :
    (w'.server.clients slot).recvLen + ipcHeaderSize ≤ (w.server.clients slot).recvLen := by
  rw [ipcFrameTurn] at h
  simp only at h
  split at h
  · cases h
  · split at h
    · cases h
    · split at h
      · cases h
      · rename_i hlen
        split at h
        · cases h
        · rename_i req hreq
          obtain rfl := Turn.goesOn.inj h
          -- Only a decoded frame goes on, and its length counts the header.
          obtain ⟨hsize, -⟩ := of_ipcDecodeMessage hreq
          rw [length_load] at hsize
          obtain ⟨-, -, -, hbuf, -⟩ :=
            ipcServeRequest_spec (rfl : ipcServeRequest accepts w slot _ req = _) rfl (not_lt.mp hlen)
          have hleft := congrArg List.length hbuf
          rw [List.length_drop, length_buffered, length_buffered] at hleft
          omega

/-- A closed slot is not active, whether or not it was. -/
theorem active_ipcCloseClient (w : IpcWorld σ) (slot : Fin ipcMaxConnections) (reason : CloseReason) :
    ((ipcCloseClient w slot reason).server.clients slot).active = false := by
  rw [ipcCloseClient]
  simp only
  split
  · simp
  · rename_i hactive
    exact Bool.eq_false_of_not_eq_true hactive

/-- A pass that leaves the loop with the client active waits: a header or the rest of a frame is missing,
and the whole frame fits in the buffer. -/
theorem frameTurn_ends (h : ipcFrameTurn accepts slot w = .ends w')
    (hactive : (w'.server.clients slot).active = true) :
    (w'.server.clients slot).recvLen < ipcHeaderSize ∨
      (w'.server.clients slot).recvLen < (w'.server.clients slot).announcedLen ∧
        (w'.server.clients slot).announcedLen ≤ ipcMaxFrameSize := by
  rw [ipcFrameTurn] at h
  simp only at h
  split at h
  · rename_i hsize
    obtain rfl := Turn.ends.inj h
    exact .inl hsize
  · split at h
    · -- A frame that is too long closes the client, as does one that is refused.
      obtain rfl := Turn.ends.inj h
      rw [active_ipcCloseClient] at hactive
      cases hactive
    · rename_i hmax
      split at h
      · rename_i hlen
        obtain rfl := Turn.ends.inj h
        exact .inr ⟨hlen, not_lt.mp hmax⟩
      · split at h
        · obtain rfl := Turn.ends.inj h
          rw [ipcRefuseFrame] at hactive
          split at hactive
          all_goals
            rw [active_ipcCloseClient] at hactive
            cases hactive
        · cases h

end Turns

/-- **The receive buffer always has room.** In every run of the server, for every active client: `recv` is
called with a positive length; where bytes arrive, in whatever amount, the buffer holds what is read of
them, the loop over the frames returns, after at most one pass more than there are headers' lengths in the
buffer; where it leaves the client active, the buffer is not full and lacks a header or the rest of the
announced frame; and neither bytes nor their absence make the server take the peer for closed. -/
theorem ipc_recv_has_room {σ : Type} (accepts : ℕ → ℕ) (handler : Option (σ → IpcMessage → IpcMessage × σ))
    (userData : σ) (past : List (Record (IpcWorld σ) IpcEvent Unit)) (w : IpcWorld σ)
    (hrun : IpcRun accepts handler userData past w) (slot : Fin ipcMaxConnections)
    (hactive : (w.server.clients slot).active = true) :
    0 < (w.server.clients slot).recvSpace ∧
      (ipcStep accepts w (.clientData slot .wouldBlock)).1 = w ∧
      ∀ available, available ≠ [] →
        let w₀ := ipcBufferBytes w slot (available.take (w.server.clients slot).recvSpace)
        let w' := (ipcStep accepts w (.clientData slot (.data available))).1
        (w₀.server.clients slot).recvLen ≤ ipcMaxFrameSize ∧
          (∃ n, Returns (ipcFrameTurn accepts slot) w₀ n w') ∧
          (∀ n w'', Returns (ipcFrameTurn accepts slot) w₀ n w'' →
            w'' = w' ∧ n ≤ (w₀.server.clients slot).recvLen / ipcHeaderSize + 1) ∧
          ((w'.server.clients slot).active = true → (w'.server.clients slot).recvLen < ipcMaxFrameSize ∧
              ((w'.server.clients slot).recvLen < ipcHeaderSize ∨
                (w'.server.clients slot).recvLen < (w'.server.clients slot).announcedLen)) ∧
          (w'.conns (w.server.clients slot).fd).closed ≠ some .disconnected := by
  have inv := ipcInv_of_run hrun
  have hroom := inv.recvLen_lt hactive
  refine ⟨Nat.sub_pos_of_lt hroom, by rw [ipcStep, if_pos hactive]; rfl, fun available hne => ?_⟩
  intro w₀ w'
  have hbuffered : (w₀.server.clients slot).recvLen ≤ ipcMaxFrameSize := by
    obtain ⟨-, -, -, hbuf, -⟩ := ipcBufferBytes_spec (rfl : ipcBufferBytes w slot _ = w₀) rfl
    rw [← length_buffered, hbuf, List.length_append, length_buffered, List.length_take, IpcClient.recvSpace]
    omega
  -- The bytes in the buffer are the budget, and a header is what a pass takes from it.
  obtain ⟨n, w'', hreturns, hn⟩ := @returns_of_budget _ (ipcFrameTurn accepts slot)
    (fun w => (w.server.clients slot).recvLen) ipcHeaderSize (by decide) (fun _ _ h => frameTurn_goesOn h) w₀
  have hstep : w'' = w' := by
    rw [← frameLoop_eq_of_returns hreturns (hn.trans (Nat.add_le_add_right (Nat.div_le_self _ _) 1))]
    show _ = (ipcStep accepts w (.clientData slot (.data available))).1
    rw [ipcStep, if_pos hactive, inv.handleClientData_data accepts hactive hne]
    rfl
  subst hstep
  refine ⟨hbuffered, ⟨n, hreturns⟩, fun m w'' h => ?_, fun hstill => ?_, fun hclosed => ?_⟩
  · obtain ⟨rfl, rfl⟩ := hreturns.unique h
    exact ⟨rfl, hn⟩
  · obtain ⟨t, hlast⟩ := hreturns.last
    obtain hheader | ⟨hframe, hmax⟩ := frameTurn_ends hlast hstill
    · refine ⟨?_, .inl hheader⟩
      rw [ipcHeaderSize] at hheader
      rw [ipcMaxFrameSize]
      omega
    · exact ⟨hframe.trans_le hmax, .inr hframe⟩
  · obtain hopen | hmalformed := inv.closed_of_arrival accepts hactive rfl hne
    · rw [hopen] at hclosed
      cases hclosed
    · rw [hmalformed] at hclosed
      cases hclosed

/-- A client whose first bytes were half a header. -/
def halfHeader : List (Record (IpcWorld Unit) IpcEvent Unit) × IpcWorld Unit :=
  exec (ipcStep fun _ => 100) (ipcServerInit none ()) [.acceptClient true, .clientData 0 (.data [0, 0, 0])]

/-- The rest of that frame, another frame and two bytes more: at most three passes. -/
theorem ipc_recv_has_room_halfHeader :
    (halfHeader.2.server.clients 0).active = true ∧
      ∀ n w'', Returns (ipcFrameTurn (fun _ => 100) 0)
        (ipcBufferBytes halfHeader.2 0
          (List.take (halfHeader.2.server.clients 0).recvSpace [6, 1, 2, 0, 0, 0, 7, 1, 1, 65, 0, 0])) n w'' →
        (w''.server.clients 0).recvLen = 2 ∧ n ≤ 15 / 6 + 1 := by
  have hactive : (halfHeader.2.server.clients 0).active = true := by decide +kernel
  obtain ⟨-, -, harrival⟩ := ipc_recv_has_room (fun _ => 100) none () _ _ (run_exec _ _ _) 0 hactive
  obtain ⟨-, -, hpasses, -⟩ := harrival [6, 1, 2, 0, 0, 0, 7, 1, 1, 65, 0, 0] (by decide)
  refine ⟨hactive, fun n w'' h => ?_⟩
  obtain ⟨rfl, hn⟩ := hpasses n w'' h
  exact ⟨by decide +kernel, hn.trans (by decide +kernel)⟩

end CGateway
