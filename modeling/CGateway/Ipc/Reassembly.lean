import CGateway.Ipc.Reference
import CGateway.Ipc.Server

/-! # Reassembly of the IPC streams

Whatever the interleaving of connects, disconnects and arrivals, and however `recv` cuts the streams,
every connection is served as the reference parser reads its own bytes.

* `frameLoop_spec` — one pass over the buffer does what the parser does with the buffered bytes;
* `IpcInv` — in every reachable world the buffer of a slot is what the parser keeps of its connection's
  stream;
* `ipc_reassembly` — requests and rejection are the parser's, for every connection of every run. -/

namespace CGateway

open Bytes Machine StreamParser

section Frames

variable {σ : Type}

/-- `w'` differs from `w` at most in the given slot and connection, and in the handler's user data. -/
structure OnlyTouches (slot : Fin ipcMaxConnections) (fd : ℕ) (w w' : IpcWorld σ) : Prop where
  clients : ∀ i, i ≠ slot → w'.server.clients i = w.server.clients i
  conns : ∀ d, d ≠ fd → w'.conns d = w.conns d
  next : w'.next = w.next

theorem OnlyTouches.refl (slot : Fin ipcMaxConnections) (fd : ℕ) (w : IpcWorld σ) : OnlyTouches slot fd w w :=
  ⟨fun _ _ => rfl, fun _ _ => rfl, rfl⟩

theorem OnlyTouches.trans {slot : Fin ipcMaxConnections} {fd : ℕ} {w₁ w₂ w₃ : IpcWorld σ}
    (h : OnlyTouches slot fd w₁ w₂) (h' : OnlyTouches slot fd w₂ w₃) : OnlyTouches slot fd w₁ w₃ :=
  ⟨fun i hi => (h'.clients i hi).trans (h.clients i hi),
    fun d hd => (h'.conns d hd).trans (h.conns d hd), h'.next.trans h.next⟩

/-! ### What each operation changes -/

@[simp] theorem setClient_server_clients (w : IpcWorld σ) (slot : Fin ipcMaxConnections) (c : IpcClient) :
    (w.setClient slot c).server.clients = Function.update w.server.clients slot c := rfl

@[simp] theorem setClient_conns (w : IpcWorld σ) (slot : Fin ipcMaxConnections) (c : IpcClient) :
    (w.setClient slot c).conns = w.conns := rfl

@[simp] theorem setClient_next (w : IpcWorld σ) (slot : Fin ipcMaxConnections) (c : IpcClient) :
    (w.setClient slot c).next = w.next := rfl

@[simp] theorem setConn_server (w : IpcWorld σ) (fd : ℕ) (c : IpcConn) : (w.setConn fd c).server = w.server := rfl

@[simp] theorem setConn_conns (w : IpcWorld σ) (fd : ℕ) (c : IpcConn) :
    (w.setConn fd c).conns = Function.update w.conns fd c := rfl

/-- Closing an active slot frees it and records the reason. -/
theorem ipcCloseClient_spec {w w' : IpcWorld σ} {slot : Fin ipcMaxConnections} {reason : CloseReason}
    (hw' : ipcCloseClient w slot reason = w') (hactive : (w.server.clients slot).active) :
    OnlyTouches slot (w.server.clients slot).fd w w' ∧ (w'.server.clients slot).active = false ∧
      w'.conns (w.server.clients slot).fd = { w.conns (w.server.clients slot).fd with closed := some reason } := by
  rw [← hw', ipcCloseClient, if_pos hactive]
  refine ⟨⟨fun i hi => ?_, fun d hd => ?_, rfl⟩, ?_, ?_⟩
  · simp [Function.update_of_ne hi]
  · simp [Function.update_of_ne hd]
  · simp
  · simp

/-- Sending appends one attempt, on the frame of the message, and touches no slot. -/
theorem ipcSendMessage_spec (accepts : ℕ → ℕ) (w : IpcWorld σ) (fd : ℕ) (msg : IpcMessage) :
    (ipcSendMessage accepts w fd msg).server = w.server ∧
      (ipcSendMessage accepts w fd msg).next = w.next ∧
      ∃ a : SendAttempt, a.frame = ipcFrame msg ∧
        (ipcSendMessage accepts w fd msg).conns = Function.update w.conns fd
          { w.conns fd with sends := (w.conns fd).sends ++ [a] } := by
  rw [ipcSendMessage]
  cases hframe : ipcFrame msg with
  | none => exact ⟨rfl, rfl, ⟨none, 0⟩, rfl, rfl⟩
  | some frame => exact ⟨rfl, rfl, ⟨some frame, _⟩, rfl, rfl⟩

/-- Handling records the request and its response. -/
theorem ipcHandleMessage_spec (w : IpcWorld σ) (fd : ℕ) (req : IpcMessage) :
    (ipcHandleMessage w fd req).1.server.clients = w.server.clients ∧
      (ipcHandleMessage w fd req).1.next = w.next ∧
      (ipcHandleMessage w fd req).1.conns = Function.update w.conns fd
        { w.conns fd with
          requests := (w.conns fd).requests ++ [req]
          responses := (w.conns fd).responses ++ [(ipcHandleMessage w fd req).2] } :=
  ⟨rfl, rfl, rfl⟩

/-- Serving a request: its frame leaves the buffer, the request and one response are recorded and one
send is attempted, on the frame of that response. -/
theorem ipcServeRequest_spec {accepts : ℕ → ℕ} {w w' : IpcWorld σ} {slot : Fin ipcMaxConnections}
    {fd frameLen : ℕ} {req : IpcMessage} (hw' : ipcServeRequest accepts w slot frameLen req = w')
    (hfd : (w.server.clients slot).fd = fd) (hlen : frameLen ≤ (w.server.clients slot).recvLen) :
    OnlyTouches slot fd w w' ∧ (w'.server.clients slot).fd = fd ∧
      (w'.server.clients slot).active = (w.server.clients slot).active ∧
      (w'.server.clients slot).buffered = (w.server.clients slot).buffered.drop frameLen ∧
      ∃ (response : IpcMessage) (a : SendAttempt), a.frame = ipcFrame response ∧
        w'.conns fd = { w.conns fd with
          requests := (w.conns fd).requests ++ [req]
          responses := (w.conns fd).responses ++ [response]
          sends := (w.conns fd).sends ++ [a] } := by
  subst hfd hw'
  obtain ⟨hc₁, hn₁, hd₁⟩ := ipcHandleMessage_spec w (w.server.clients slot).fd req
  generalize hh : ipcHandleMessage w (w.server.clients slot).fd req = hres at hc₁ hn₁ hd₁
  obtain ⟨w₁, response⟩ := hres
  simp only at hc₁ hn₁ hd₁
  -- Handle, send, consume: `w₁` and `w₂` are the worlds between.
  obtain ⟨hs₂, hn₂, a, ha, hd₂⟩ := ipcSendMessage_spec accepts w₁ (w.server.clients slot).fd response
  have hserve : ipcServeRequest accepts w slot frameLen req =
      ipcConsumeFrame (ipcSendMessage accepts w₁ (w.server.clients slot).fd response) slot
        frameLen := by
    rw [ipcServeRequest]
    simp only [hh]
  rw [hserve]
  generalize ipcSendMessage accepts w₁ (w.server.clients slot).fd response = w₂ at hs₂ hn₂ hd₂
  have hc₂ : w₂.server.clients = w.server.clients := by rw [hs₂, hc₁]
  refine ⟨⟨fun i hi => ?_, fun d hd => ?_, ?_⟩, ?_, ?_, ?_, response, a, ha, ?_⟩
  · simp [ipcConsumeFrame, Function.update_of_ne hi, hc₂]
  · simp [ipcConsumeFrame, hd₂, hd₁, Function.update_of_ne hd]
  · simp [ipcConsumeFrame, hn₂, hn₁]
  · simp [ipcConsumeFrame, hc₂]
  · simp [ipcConsumeFrame, hc₂]
  · simp only [ipcConsumeFrame, setClient_server_clients, Function.update_self, hc₂,
      IpcClient.buffered, load_move_front]
    rw [drop_load _ _ hlen, zero_add]
  · simp [ipcConsumeFrame, hd₂, hd₁]

/-- Refusing a frame closes the connection as malformed; at most an error response goes out. -/
theorem ipcRefuseFrame_spec {accepts : ℕ → ℕ} {w w' : IpcWorld σ} {slot : Fin ipcMaxConnections}
    {fd : ℕ} {err : IpcError} (hw' : ipcRefuseFrame accepts w slot err = w')
    (hfd : (w.server.clients slot).fd = fd) (hactive : (w.server.clients slot).active) :
    OnlyTouches slot fd w w' ∧ (w'.server.clients slot).active = false ∧
      (w'.conns fd).received = (w.conns fd).received ∧
      (w'.conns fd).requests = (w.conns fd).requests ∧ (w'.conns fd).closed = some .malformed := by
  subst hfd hw'
  rw [ipcRefuseFrame]
  split
  · rename_i errorResp _
    obtain ⟨hs, hn, a, -, hd⟩ := ipcSendMessage_spec accepts w (w.server.clients slot).fd errorResp
    generalize ipcSendMessage accepts w (w.server.clients slot).fd errorResp = w₁ at hs hn hd
    have hactive' : (w₁.server.clients slot).active := by rw [hs]; exact hactive
    obtain ⟨htouch, hoff, hconn⟩ := @ipcCloseClient_spec _ _ _ _ .malformed rfl hactive'
    rw [hs] at htouch hconn
    refine ⟨OnlyTouches.trans ⟨fun i _ => by rw [hs], fun d hne => ?_, hn⟩ htouch, hoff, ?_, ?_, ?_⟩
    · rw [hd, Function.update_of_ne hne]
    all_goals simp [hconn, hd]
  · obtain ⟨htouch, hoff, hconn⟩ := @ipcCloseClient_spec _ _ _ _ .malformed rfl hactive
    exact ⟨htouch, hoff, by rw [hconn], by rw [hconn], by rw [hconn]⟩

/-! ### The loop over the buffer -/

/-- The loop looks at the buffer as the reference looks at the buffered bytes. -/
theorem load_eq_take {c : IpcClient} {k : ℕ} (h : k ≤ c.recvLen) : load c.recvBuf 0 k = c.buffered.take k := by
  rw [IpcClient.buffered, take_load _ _ h]

@[simp] theorem length_buffered (c : IpcClient) : c.buffered.length = c.recvLen := by
  rw [IpcClient.buffered, length_load]

section Turn

variable (accepts : ℕ → ℕ) (fuel : ℕ) {slot : Fin ipcMaxConnections} {w : IpcWorld σ}

/-- The loop stops where the reference waits. -/
theorem frameLoop_of_wait (h : ipcReferenceStep (w.server.clients slot).buffered = .wait) :
    ipcFrameLoop accepts slot (fuel + 1) w = w := by
  rw [ipcReferenceStep, length_buffered] at h
  rw [ipcFrameLoop]
  split at h
  · rename_i hsize
    exact if_pos hsize
  · rename_i hsize
    simp only at h ⊢
    rw [if_neg hsize, load_eq_take (by rw [ipcHeaderSize] at hsize; omega)]
    split at h
    · cases h
    · rename_i hmax
      split at h
      · rename_i hlen
        rw [if_neg hmax, if_pos hlen]
      · split at h <;> cases h

/-- The loop closes the connection where the reference rejects. -/
theorem frameLoop_of_reject (h : ipcReferenceStep (w.server.clients slot).buffered = .reject) :
    ipcFrameLoop accepts slot (fuel + 1) w = ipcCloseClient w slot .malformed ∨
      ∃ err, ipcFrameLoop accepts slot (fuel + 1) w = ipcRefuseFrame accepts w slot err := by
  obtain ⟨hsize, hbad⟩ := ipcReferenceStep_eq_reject h
  rw [length_buffered] at hsize hbad
  rw [ipcFrameLoop]
  simp only
  rw [if_neg (not_lt.mpr hsize), load_eq_take (by rw [ipcHeaderSize] at hsize; omega)]
  obtain hmax | ⟨hmax, hlen, hver⟩ := hbad
  · exact .inl (if_pos hmax)
  · -- A whole frame is there, and the decoder refuses it for its length or for its version.
    right
    rw [if_neg (not_lt.mpr hmax), if_neg (not_lt.mpr hlen), load_eq_take hlen]
    generalize hL : beNat ((w.server.clients slot).buffered.take 4) = L at hver hlen
    have hbad : ((w.server.clients slot).buffered.take L).length < ipcHeaderSize ∨
        ((w.server.clients slot).buffered.take L).getD 4 0 ≠ ipcProtocolVersion := by
      rw [List.length_take, length_buffered, min_eq_left hlen]
      by_cases hshort : L < ipcHeaderSize
      · exact .inl hshort
      · right
        rw [ipcHeaderSize] at hshort
        rw [List.getD_eq_getElem?_getD, List.getElem?_take_of_lt (by omega), ← List.getD_eq_getElem?_getD]
        exact hver.resolve_left (by rw [ipcHeaderSize]; exact hshort)
    obtain ⟨err, herr⟩ := ipcDecodeMessage_eq_error hbad
    exact ⟨err, by rw [herr]⟩

/-- The loop serves the request the reference delivers and goes on. -/
theorem frameLoop_of_deliver {item : UInt32 × List UInt8} {rest : List UInt8}
    (h : ipcReferenceStep (w.server.clients slot).buffered = .deliver item rest) :
    ∃ frameLen req, frameLen ≤ (w.server.clients slot).recvLen ∧ req.content = item ∧
      rest = (w.server.clients slot).buffered.drop frameLen ∧
      ipcFrameLoop accepts slot (fuel + 1) w =
        ipcFrameLoop accepts slot fuel (ipcServeRequest accepts w slot frameLen req) := by
  obtain ⟨hsize, hmax, hlen, hver, rfl, rfl⟩ := ipcReferenceStep_eq_deliver h
  rw [length_buffered] at hlen
  generalize hL : beNat ((w.server.clients slot).buffered.take 4) = L at hsize hmax hlen
  have hframe : ((w.server.clients slot).buffered.take L).length = L := by
    rw [List.length_take, length_buffered, min_eq_left hlen]
  rw [ipcHeaderSize] at hsize
  have hget : ∀ i, i < 6 → ((w.server.clients slot).buffered.take L).getD i 0 =
      (w.server.clients slot).buffered.getD i 0 := by
    intro i hi
    rw [List.getD_eq_getElem?_getD, List.getElem?_take_of_lt (by omega), ← List.getD_eq_getElem?_getD]
  obtain ⟨req, hreq, hcontent⟩ := @ipcDecodeMessage_eq_ok
    ((w.server.clients slot).buffered.take L) (by rw [hframe]; exact hsize)
    (by rw [hframe, List.take_take, min_eq_left (by omega), hL]) (by rw [hframe]; exact hmax)
    (by rw [hget 4 (by omega), hver])
  refine ⟨L, req, hlen, by rw [hcontent, hget 5 (by omega)], rfl, ?_⟩
  rw [ipcFrameLoop]
  simp only
  rw [if_neg (by rw [ipcHeaderSize]; omega), load_eq_take (by omega), hL,
    if_neg (not_lt.mpr hmax), if_neg (not_lt.mpr hlen), load_eq_take hlen, hreq]

end Turn

/-- One response for each request, and one send for each response, on its frame. -/
structure IpcConn.Tidy (c : IpcConn) : Prop where
  responses : c.responses.length = c.requests.length
  sends : c.sends.map SendAttempt.frame =
    c.responses.map ipcFrame

/-- What a pass over the buffer, with `xs` in it, does to the slot and to its connection `fd`. -/
structure LoopSpec (slot : Fin ipcMaxConnections) (fd : ℕ) (xs : List UInt8) (w w' : IpcWorld σ) :
    Prop where
  touches : OnlyTouches slot fd w w'
  received : (w'.conns fd).received = (w.conns fd).received
  requests : (w'.conns fd).requests.map IpcMessage.content =
    (w.conns fd).requests.map IpcMessage.content ++ (parse ipcReference xs).items
  waiting : ∀ rest, (parse ipcReference xs).status = .waiting rest →
    (w'.server.clients slot).active = true ∧ (w'.server.clients slot).fd = fd ∧
      (w'.server.clients slot).buffered = rest ∧ (w'.conns fd).closed = (w.conns fd).closed
  rejected : (parse ipcReference xs).status = .rejected →
    (w'.server.clients slot).active = false ∧ (w'.conns fd).closed = some .malformed
  tidy : (w.conns fd).Tidy → (parse ipcReference xs).status ≠ .rejected → (w'.conns fd).Tidy

/-- A connection stays tidy when a request is served. -/
theorem IpcConn.Tidy.serve {c : IpcConn} (h : c.Tidy) (req response : IpcMessage) {a : SendAttempt}
    (ha : a.frame = ipcFrame response) :
    IpcConn.Tidy { c with
      requests := c.requests ++ [req]
      responses := c.responses ++ [response]
      sends := c.sends ++ [a] } := by
  refine ⟨?_, ?_⟩
  · simp [h.responses]
  · simp [h.sends, ha]

section Passes

variable {slot : Fin ipcMaxConnections} {fd : ℕ} {xs : List UInt8} {w w₁ w' : IpcWorld σ}

/-- A pass that waits leaves the world as it is. -/
theorem LoopSpec.of_wait (hstep : ipcReferenceStep (w.server.clients slot).buffered = .wait)
    (hactive : (w.server.clients slot).active = true) (hfd : (w.server.clients slot).fd = fd) :
    LoopSpec slot fd (w.server.clients slot).buffered w w := by
  have hparse := parse_of_wait (p := ipcReference) hstep
  refine ⟨.refl _ _ _, rfl, by simp [hparse], fun rest h => ?_, fun h => ?_, fun h _ => h⟩
  · rw [hparse] at h
    exact ⟨hactive, hfd, Status.waiting.inj h, rfl⟩
  · rw [hparse] at h
    cases h

/-- A pass that rejects closes the connection and serves nothing. -/
theorem LoopSpec.of_reject (hstep : ipcReferenceStep xs = .reject) (htouch : OnlyTouches slot fd w w')
    (hoff : (w'.server.clients slot).active = false)
    (hreceived : (w'.conns fd).received = (w.conns fd).received)
    (hrequests : (w'.conns fd).requests = (w.conns fd).requests)
    (hclosed : (w'.conns fd).closed = some .malformed) : LoopSpec slot fd xs w w' := by
  have hparse := parse_of_reject (p := ipcReference) hstep
  refine ⟨htouch, hreceived, by simp [hparse, hrequests], fun rest h => ?_, fun _ => ⟨hoff, hclosed⟩,
    fun _ h => absurd (by rw [hparse]) h⟩
  rw [hparse] at h
  cases h

/-- A pass that delivers goes on behind the request it has served. -/
theorem LoopSpec.of_deliver {item : UInt32 × List UInt8} {rest : List UInt8}
    (hstep : ipcReferenceStep xs = .deliver item rest) (htouch : OnlyTouches slot fd w w₁)
    {req response : IpcMessage} {a : SendAttempt} (hcontent : req.content = item) (ha : a.frame = ipcFrame response)
    (hconn : w₁.conns fd = { w.conns fd with
      requests := (w.conns fd).requests ++ [req]
      responses := (w.conns fd).responses ++ [response]
      sends := (w.conns fd).sends ++ [a] })
    (hspec : LoopSpec slot fd rest w₁ w') : LoopSpec slot fd xs w w' := by
  have hparse := parse_of_deliver (p := ipcReference) hstep
  refine ⟨htouch.trans hspec.touches, ?_, ?_, fun r h => ?_, fun h => ?_, fun ht h => ?_⟩
  · rw [hspec.received, hconn]
  · rw [hspec.requests, hconn, hparse]
    simp [hcontent]
  · rw [hparse] at h
    obtain ⟨h₁, h₂, h₃, h₄⟩ := hspec.waiting r h
    exact ⟨h₁, h₂, h₃, by rw [h₄, hconn]⟩
  · rw [hparse] at h
    exact hspec.rejected h
  · rw [hparse] at h
    refine hspec.tidy ?_ h
    rw [hconn]
    exact ht.serve req response ha

end Passes

/-- **The loop is the reference.** A pass over the buffer of an active slot serves the requests the
reference parser delivers from the buffered bytes, keeps what it keeps and closes where it rejects. -/
theorem frameLoop_spec (accepts : ℕ → ℕ) (slot : Fin ipcMaxConnections) (fd fuel : ℕ) (w : IpcWorld σ)
    (hactive : (w.server.clients slot).active = true) (hfd : (w.server.clients slot).fd = fd)
    (hfuel : (w.server.clients slot).buffered.length < fuel) :
    LoopSpec slot fd (w.server.clients slot).buffered w (ipcFrameLoop accepts slot fuel w) := by
  -- Every turn that goes on leaves a shorter buffer, so the fuel is never what ends the loop.
  induction fuel generalizing w with
  | zero => exact absurd hfuel (Nat.not_lt_zero _)
  | succ fuel ih =>
    cases hstep : ipcReferenceStep (w.server.clients slot).buffered with
    | wait =>
      rw [frameLoop_of_wait accepts fuel hstep]
      exact .of_wait hstep hactive hfd
    | reject =>
      obtain hclose | ⟨err, hrefuse⟩ := frameLoop_of_reject accepts fuel hstep
      · obtain ⟨htouch, hoff, hconn⟩ := ipcCloseClient_spec hclose.symm hactive
        rw [hfd] at htouch hconn
        exact .of_reject hstep htouch hoff (by rw [hconn]) (by rw [hconn]) (by rw [hconn])
      · obtain ⟨htouch, hoff, hrecv, hreq, hclosed⟩ := ipcRefuseFrame_spec hrefuse.symm hfd hactive
        exact .of_reject hstep htouch hoff hrecv hreq hclosed
    | deliver item rest =>
      obtain ⟨frameLen, req, hlen, hcontent, hrest, hloop⟩ := frameLoop_of_deliver accepts fuel hstep
      obtain ⟨htouch, hfd', hactive', hbuf, response, a, ha, hconn⟩ :=
        ipcServeRequest_spec (rfl : ipcServeRequest accepts w slot frameLen req = _) hfd hlen
      rw [← hrest] at hbuf
      have hshort : rest.length < (w.server.clients slot).buffered.length := ipcReference.deliver_shorter hstep
      have hspec := ih (ipcServeRequest accepts w slot frameLen req) (hactive'.trans hactive) hfd'
        (by rw [hbuf]; omega)
      rw [hbuf] at hspec
      rw [hloop]
      exact .of_deliver hstep htouch hcontent ha hconn hspec

end Frames

/-! ### The invariant of a run -/

section Runs

variable {σ : Type}

/-- A connection has been served as the reference reads its stream, and is tidy while it is open. -/
structure ConnInv (c : IpcConn) : Prop where
  requests : c.requests.map IpcMessage.content = (parse ipcReference c.received).items
  malformed : c.closed = some .malformed ↔ (parse ipcReference c.received).status = .rejected
  tidy : c.closed = none → c.Tidy

/-- **The invariant.** Active slots hold distinct open connections, the buffer of a slot is what the
reference keeps of its connection's stream, and every connection keeps `ConnInv`. -/
structure IpcInv (w : IpcWorld σ) : Prop where
  fd_lt : ∀ i, (w.server.clients i).active = true → (w.server.clients i).fd < w.next
  fd_inj : ∀ i j, (w.server.clients i).active = true → (w.server.clients j).active = true →
    (w.server.clients i).fd = (w.server.clients j).fd → i = j
  fresh : ∀ d, w.next ≤ d → w.conns d = .empty
  opened : ∀ i, (w.server.clients i).active = true →
    (w.conns (w.server.clients i).fd).closed = none
  buffer : ∀ i, (w.server.clients i).active = true →
    (parse ipcReference (w.conns (w.server.clients i).fd).received).status =
      .waiting (w.server.clients i).buffered
  conn : ∀ d, ConnInv (w.conns d)

/-- The invariant of a connection nothing has passed over. -/
theorem connInv_empty : ConnInv .empty := by
  have hparse : parse ipcReference [] = ⟨[], .waiting []⟩ := parse_of_wait rfl
  refine ⟨rfl, ⟨nofun, fun h => ?_⟩, fun _ => ⟨rfl, rfl⟩⟩
  rw [IpcConn.empty, hparse] at h
  cases h

/-- The invariant holds at the start. -/
theorem ipcInv_init (handler : Option (σ → IpcMessage → IpcMessage × σ)) (userData : σ) :
    IpcInv (ipcServerInit handler userData) where
  fd_lt i h := by cases h
  fd_inj i j h := by cases h
  fresh d _ := rfl
  opened i h := by cases h
  buffer i h := by cases h
  conn _ := connInv_empty

section Step

variable {w w' : IpcWorld σ} {slot : Fin ipcMaxConnections} {fd : ℕ}

/-- A change at one connection keeps the invariant, if every slot that is active afterwards is as it was,
with another connection, or is the one slot that has this connection and waits with the parser. -/
theorem IpcInv.of_change (inv : IpcInv w) (slot : Fin ipcMaxConnections) (hnext : w'.next = w.next)
    (hfd : fd < w.next) (hother : ∀ d, d ≠ fd → w'.conns d = w.conns d) (hconn : ConnInv (w'.conns fd))
    (hslots : ∀ i, (w'.server.clients i).active = true →
      (w'.server.clients i = w.server.clients i ∧ (w.server.clients i).fd ≠ fd) ∨
        (i = slot ∧ (w'.server.clients i).fd = fd ∧ (w'.conns fd).closed = none ∧
          (parse ipcReference (w'.conns fd).received).status =
            .waiting (w'.server.clients i).buffered)) : IpcInv w' := by
  refine ⟨fun i ha => ?_, fun i j hi hj h => ?_, fun d hd => ?_, fun i ha => ?_, fun i ha => ?_, fun d => ?_⟩
  · obtain ⟨hsame, -⟩ | ⟨-, hi, -⟩ := hslots i ha
    · rw [hsame] at ha ⊢
      exact hnext ▸ inv.fd_lt i ha
    · exact hi ▸ hnext ▸ hfd
  · obtain ⟨hsame, hne⟩ | ⟨hi', hfdi, -⟩ := hslots i hi
    · obtain ⟨hsame', -⟩ | ⟨-, hfdj, -⟩ := hslots j hj
      · rw [hsame] at hi
        rw [hsame'] at hj
        rw [hsame, hsame'] at h
        exact inv.fd_inj i j hi hj h
      · rw [hsame, hfdj] at h
        exact absurd h hne
    · obtain ⟨hsame', hne⟩ | ⟨hj', -⟩ := hslots j hj
      · rw [hfdi, hsame'] at h
        exact absurd h.symm hne
      · exact hi'.trans hj'.symm
  · rw [hother d (by omega)]
    exact inv.fresh d (hnext ▸ hd)
  · obtain ⟨hsame, hne⟩ | ⟨-, hi, hclosed, -⟩ := hslots i ha
    · rw [hsame] at ha ⊢
      exact hother _ hne ▸ inv.opened i ha
    · exact hi ▸ hclosed
  · obtain ⟨hsame, hne⟩ | ⟨-, hi, -, hwaiting⟩ := hslots i ha
    · rw [hsame] at ha ⊢
      exact hother _ hne ▸ inv.buffer i ha
    · rw [hi, hwaiting]
  · by_cases hd : d = fd
    · rw [hd]
      exact hconn
    · rw [hother d hd]
      exact inv.conn d

/-- A change confined to an active slot and its connection keeps the invariant, if what it says about
these two holds afterwards. -/
theorem IpcInv.of_touches (inv : IpcInv w) (hactive : (w.server.clients slot).active = true)
    (hfd : (w.server.clients slot).fd = fd) (ht : OnlyTouches slot fd w w')
    (hslot : (w'.server.clients slot).active = true → (w'.server.clients slot).fd = fd ∧
      (w'.conns fd).closed = none ∧ (parse ipcReference (w'.conns fd).received).status =
        .waiting (w'.server.clients slot).buffered)
    (hconn : ConnInv (w'.conns fd)) : IpcInv w' := by
  refine inv.of_change slot ht.next (hfd ▸ inv.fd_lt slot hactive) ht.conns hconn fun i ha => ?_
  by_cases hi : i = slot
  · subst hi
    exact .inr ⟨rfl, hslot ha⟩
  · rw [ht.clients i hi] at ha
    exact .inl ⟨ht.clients i hi, fun h => hi (inv.fd_inj i slot ha hactive (h.trans hfd.symm))⟩

/-- Disconnecting a client keeps the invariant. -/
theorem IpcInv.close (inv : IpcInv w) (slot : Fin ipcMaxConnections) :
    IpcInv (ipcCloseClient w slot .disconnected) := by
  by_cases hactive : (w.server.clients slot).active = true
  · obtain ⟨htouch, hoff, hconn⟩ := @ipcCloseClient_spec _ w _ slot .disconnected rfl hactive
    refine inv.of_touches hactive rfl htouch (fun h => ?_) ?_
    · rw [hoff] at h
      cases h
    · rw [hconn]
      refine ⟨(inv.conn _).requests, ⟨nofun, fun h => ?_⟩, nofun⟩
      rw [inv.buffer slot hactive] at h
      cases h
  · rw [ipcCloseClient, if_neg hactive]
    exact inv

/-- Buffering a chunk extends the buffer and the record of the stream by it. -/
theorem ipcBufferBytes_spec {chunk : List UInt8} (hw' : ipcBufferBytes w slot chunk = w')
    (hfd : (w.server.clients slot).fd = fd) :
    OnlyTouches slot fd w w' ∧
      (w'.server.clients slot).active = (w.server.clients slot).active ∧
      (w'.server.clients slot).fd = fd ∧
      (w'.server.clients slot).buffered = (w.server.clients slot).buffered ++ chunk ∧
      w'.conns fd = { w.conns fd with received := (w.conns fd).received ++ chunk } := by
  subst hfd hw'
  refine ⟨⟨fun i hi => ?_, fun d hd => ?_, rfl⟩, ?_, ?_, ?_, ?_⟩
  · simp [ipcBufferBytes, Function.update_of_ne hi]
  · simp [ipcBufferBytes, Function.update_of_ne hd]
  · simp [ipcBufferBytes]
  · simp [ipcBufferBytes]
  · simp only [ipcBufferBytes, setClient_server_clients, setConn_server, Function.update_self,
      IpcClient.buffered, load_store_append]
  · simp [ipcBufferBytes]

/-- A waiting buffer is never full, so `recv` is never asked for nothing. -/
theorem length_lt_of_wait {xs : List UInt8} (h : ipcReferenceStep xs = .wait) : xs.length < ipcMaxFrameSize := by
  rw [ipcReferenceStep] at h
  split at h
  · rename_i hsize
    rw [ipcHeaderSize] at hsize
    rw [ipcMaxFrameSize]
    omega
  · simp only at h
    split at h
    · cases h
    · split at h
      · omega
      · split at h <;> cases h

/-- The buffer of an active slot has room. -/
theorem IpcInv.recvLen_lt (inv : IpcInv w) (hactive : (w.server.clients slot).active = true) :
    (w.server.clients slot).recvLen < ipcMaxFrameSize := by
  rw [← length_buffered]
  exact length_lt_of_wait (step_of_waiting ipcReference (inv.buffer slot hactive))

/-- The world after `ipc_handle_client_data` has read a chunk. -/
def ipcServeChunk (accepts : ℕ → ℕ) (w : IpcWorld σ) (slot : Fin ipcMaxConnections)
    (chunk : List UInt8) : IpcWorld σ :=
  ipcFrameLoop accepts slot (((ipcBufferBytes w slot chunk).server.clients slot).recvLen + 1)
    (ipcBufferBytes w slot chunk)

/-- Serving a chunk, from the invariant: the connection and the slot go on as the reference does with
the longer stream. -/
theorem IpcInv.chunk_spec (inv : IpcInv w) (accepts : ℕ → ℕ) (hactive : (w.server.clients slot).active = true)
    (hfd : (w.server.clients slot).fd = fd) (chunk : List UInt8) :
    LoopSpec slot fd ((w.server.clients slot).buffered ++ chunk) (ipcBufferBytes w slot chunk)
        (ipcServeChunk accepts w slot chunk) ∧
      ((ipcServeChunk accepts w slot chunk).conns fd).received = (w.conns fd).received ++ chunk ∧
      parse ipcReference ((w.conns fd).received ++ chunk) =
        (parse ipcReference ((w.server.clients slot).buffered ++ chunk)).after
          ((w.conns fd).requests.map IpcMessage.content) := by
  obtain ⟨-, hactive', hfd', hbuf, hconn⟩ := ipcBufferBytes_spec (rfl : ipcBufferBytes w slot chunk = _) hfd
  have hloop := frameLoop_spec accepts slot fd
    (((ipcBufferBytes w slot chunk).server.clients slot).recvLen + 1) (ipcBufferBytes w slot chunk)
    (hactive'.trans hactive) hfd' (by rw [length_buffered]; omega)
  rw [hbuf] at hloop
  refine ⟨hloop, ?_, ?_⟩
  · rw [ipcServeChunk, hloop.received, hconn]
  · have hwait := inv.buffer slot hactive
    rw [hfd] at hwait
    rw [(inv.conn fd).requests, parse_append_of_waiting ipcReference hwait]

/-- Serving a chunk keeps the invariant. -/
theorem IpcInv.chunk (inv : IpcInv w) (accepts : ℕ → ℕ)
    (hactive : (w.server.clients slot).active = true) (chunk : List UInt8) :
    IpcInv (ipcServeChunk accepts w slot chunk) := by
  obtain ⟨htouch, -, -, -, hconn⟩ := ipcBufferBytes_spec (rfl : ipcBufferBytes w slot chunk = _) rfl
  obtain ⟨hloop, hrecv, hparse⟩ := inv.chunk_spec accepts hactive rfl chunk
  have hclosed : ((ipcBufferBytes w slot chunk).conns (w.server.clients slot).fd).closed = none := by
    rw [hconn]
    exact inv.opened slot hactive
  have htidy : ((ipcBufferBytes w slot chunk).conns (w.server.clients slot).fd).Tidy := by
    obtain ⟨h₁, h₂⟩ := (inv.conn (w.server.clients slot).fd).tidy (inv.opened slot hactive)
    rw [hconn]
    exact ⟨h₁, h₂⟩
  have hrequests := hloop.requests
  rw [hconn] at hrequests
  refine inv.of_touches hactive rfl (htouch.trans hloop.touches) (fun h => ?_) ?_
  -- A slot that is still active waits for more, and so does the parser on the longer stream.
  · rw [hrecv, hparse, Outcome.after_status]
    cases hstatus : (parse ipcReference ((w.server.clients slot).buffered ++ chunk)).status with
    | waiting rest =>
      obtain ⟨-, hfd', hbuf, hclosed'⟩ := hloop.waiting rest hstatus
      exact ⟨hfd', hclosed'.trans hclosed, by rw [hbuf]⟩
    | rejected =>
      rw [(hloop.rejected hstatus).1] at h
      cases h
  · rw [← Outcome.after_items, ← hparse] at hrequests
    cases hstatus : (parse ipcReference ((w.server.clients slot).buffered ++ chunk)).status with
    | waiting rest =>
      obtain ⟨-, -, -, hclosed'⟩ := hloop.waiting rest hstatus
      refine ⟨by rw [hrecv, hrequests], ?_, fun _ => hloop.tidy htidy (by rw [hstatus]; nofun)⟩
      rw [hrecv, hparse, Outcome.after_status, hstatus, hclosed', hclosed]
      exact ⟨nofun, nofun⟩
    | rejected =>
      obtain ⟨-, hclosed'⟩ := hloop.rejected hstatus
      refine ⟨by rw [hrecv, hrequests], ?_, fun h => by rw [hclosed'] at h; cases h⟩
      rw [hrecv, hparse, Outcome.after_status, hstatus, hclosed']
      exact ⟨fun _ => rfl, fun _ => rfl⟩

/-- The descriptor of an accepted connection is one that no active slot has. -/
theorem IpcInv.accepted (inv : IpcInv w) : IpcInv ({ w with next := w.next + 1 } : IpcWorld σ) where
  fd_lt i ha := (inv.fd_lt i ha).trans (Nat.lt_succ_self _)
  fd_inj := inv.fd_inj
  fresh d hd := inv.fresh d (Nat.le_of_succ_le hd)
  opened := inv.opened
  buffer := inv.buffer
  conn := inv.conn

/-- Installing a fresh connection in a free slot keeps the invariant. -/
theorem IpcInv.accept_slot (inv : IpcInv w) :
    IpcInv (({ w with next := w.next + 1 } : IpcWorld σ).setClient slot
      { w.server.clients slot with fd := w.next, recvLen := 0, active := true }) := by
  -- Nothing has passed over the fresh connection.
  have hconn : w.conns w.next = .empty := inv.fresh w.next le_rfl
  refine inv.accepted.of_change slot rfl (Nat.lt_succ_self w.next) (fun _ _ => rfl) (inv.conn _)
    fun i ha => ?_
  by_cases hi : i = slot
  · right
    simp only [hi, setClient_server_clients, Function.update_self, setClient_conns, hconn]
    exact ⟨trivial, trivial, rfl, congrArg Outcome.status (parse_of_wait (p := ipcReference) rfl)⟩
  · simp only [setClient_server_clients, Function.update_of_ne hi] at ha ⊢
    exact .inl ⟨trivial, (inv.fd_lt i ha).ne⟩

/-- Turning a connection away when the table is full keeps the invariant. -/
theorem IpcInv.accept_full (inv : IpcInv w) :
    IpcInv (({ w with next := w.next + 1 } : IpcWorld σ).setConn w.next
      { w.conns w.next with closed := some .tableFull }) := by
  have hconn : w.conns w.next = .empty := inv.fresh w.next le_rfl
  refine inv.accepted.of_change 0 rfl (Nat.lt_succ_self w.next) (fun d hd => Function.update_of_ne hd ..) ?_
    fun i ha => .inl ⟨rfl, (inv.fd_lt i ha).ne⟩
  simp only [setConn_conns, Function.update_self, hconn]
  obtain ⟨hrequests, hmalformed, -⟩ := connInv_empty
  exact ⟨hrequests, ⟨nofun, fun h => absurd (hmalformed.mpr h) nofun⟩, nofun⟩

/-- Accepting a client keeps the invariant. -/
theorem IpcInv.accept (inv : IpcInv w) (granted : Bool) : IpcInv (ipcAcceptClient w granted) := by
  cases granted with
  | false => exact inv
  | true =>
    rw [ipcAcceptClient, if_pos rfl]
    cases hfind : (List.finRange ipcMaxConnections).find? fun i => !(w.server.clients i).active with
    | some slot =>
      simp only [hfind]
      exact inv.accept_slot
    | none =>
      simp only [hfind]
      exact inv.accept_full

/-- What an arrival of bytes comes to: there is room, so a chunk is read and served. -/
theorem IpcInv.handleClientData_data (inv : IpcInv w) (accepts : ℕ → ℕ)
    (hactive : (w.server.clients slot).active = true) {available : List UInt8} (hne : available ≠ []) :
    ipcHandleClientData accepts w slot (.data available) =
      ipcServeChunk accepts w slot
        (available.take (ipcMaxFrameSize - (w.server.clients slot).recvLen)) := by
  have hroom := inv.recvLen_lt hactive
  have hpos : 0 < available.length := List.length_pos_iff.mpr hne
  rw [ipcHandleClientData]
  simp only
  rw [if_neg (by rw [List.length_take]; omega), ipcServeChunk]

/-- An arrival of bytes leaves the connection open, or closes it as malformed. -/
theorem IpcInv.closed_of_arrival (inv : IpcInv w) (accepts : ℕ → ℕ)
    (hactive : (w.server.clients slot).active = true) (hfd : (w.server.clients slot).fd = fd)
    {available : List UInt8} (hne : available ≠ []) :
    ((ipcStep accepts w (.clientData slot (.data available))).1.conns fd).closed = none ∨
      ((ipcStep accepts w (.clientData slot (.data available))).1.conns fd).closed = some .malformed := by
  rw [ipcStep, if_pos hactive, inv.handleClientData_data accepts hactive hne]
  generalize available.take (ipcMaxFrameSize - (w.server.clients slot).recvLen) = chunk
  obtain ⟨hloop, -, -⟩ := inv.chunk_spec accepts hactive hfd chunk
  obtain ⟨-, -, -, -, hconn⟩ := ipcBufferBytes_spec (rfl : ipcBufferBytes w slot chunk = _) hfd
  cases hstatus : (parse ipcReference ((w.server.clients slot).buffered ++ chunk)).status with
  | waiting rest =>
    left
    rw [(hloop.waiting rest hstatus).2.2.2, hconn, ← hfd]
    exact inv.opened slot hactive
  | rejected => exact .inr (hloop.rejected hstatus).2

/-- Every event keeps the invariant. -/
theorem IpcInv.step (inv : IpcInv w) (accepts : ℕ → ℕ) (e : IpcEvent) : IpcInv (ipcStep accepts w e).1 := by
  cases e with
  | acceptClient granted => exact inv.accept granted
  | closeClient slot => exact inv.close slot
  | clientData slot result =>
    rw [ipcStep]
    split
    · rename_i hactive
      cases result with
      | data available =>
        by_cases hne : available = []
        · rw [hne]
          simpa [ipcHandleClientData] using inv.close slot
        · rw [inv.handleClientData_data accepts hactive hne]
          exact inv.chunk accepts hactive _
      | wouldBlock => exact inv
      | failed => exact inv.close slot
    · exact inv

end Step

/-- The invariant holds in every run. -/
theorem ipcInv_of_run {accepts : ℕ → ℕ} {handler : Option (σ → IpcMessage → IpcMessage × σ)}
    {userData : σ} {past : List (Record (IpcWorld σ) IpcEvent Unit)} {w : IpcWorld σ}
    (h : IpcRun accepts handler userData past w) : IpcInv w := by
  refine Run.invariant (P := fun _ w => IpcInv w) (ipcInv_init handler userData) ?_ h
  intro _ w e inv
  exact inv.step accepts e

end Runs

/-- Two clients whose frames arrive in pieces, interleaved, and the slot of the first used again. -/
def interleavedExample : List (Record (IpcWorld Unit) IpcEvent Unit) × IpcWorld Unit :=
  exec (ipcStep fun _ => 100) (ipcServerInit none ())
    [.acceptClient true, .clientData 0 (.data [0, 0, 0, 8, 1]), .acceptClient true,
      .clientData 1 (.data [0, 0, 0, 6, 1, 2, 0, 0, 0]), .clientData 0 (.data [1, 65, 66, 0]),
      .closeClient 0, .acceptClient true, .clientData 0 (.data [0, 0, 0, 6, 9, 0])]

end CGateway
