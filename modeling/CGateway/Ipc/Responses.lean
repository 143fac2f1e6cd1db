import CGateway.Ipc.Reassembly

/-! # The stream of responses

`ipc_send_message` offers a frame to a non-blocking socket once. When `send` takes only a part of it, or
nothing, or when the response is too large to be encoded, the failure is reported on stderr and the loop
goes on to the next request: the next response is then written behind the cut one.

* `responseStream` — what the client should read: the frames of the responses, one after the other;
* `StaysShut` — a socket that takes nothing more once it has not taken a whole response;
* `ipc_response_stream_intact` — on such a socket the client reads a prefix of the stream. -/

namespace CGateway

open Bytes Machine

/-- The frames of the responses, in order, as far as they can be encoded. -/
def responseStream : List IpcMessage → List UInt8
  | [] => []
  | r :: rs =>
      match ipcFrame r with
      | some frame => frame ++ responseStream rs
      | none => []

/-- Once `send` has not accepted a whole response, for want of room or of a frame to offer, it accepts
no byte of a later one. -/
def StaysShut (sends : List SendAttempt) : Prop :=
  sends.Pairwise fun a b => a.Complete ∨ b.accepted = 0

instance (sends : List SendAttempt) : Decidable (StaysShut sends) :=
  inferInstanceAs (Decidable (sends.Pairwise _))

/-- A complete attempt sends its frame. -/
theorem SendAttempt.Complete.sent_eq {a : SendAttempt} (h : a.Complete) :
    ∃ frame, a.frame = some frame ∧ a.sent = frame := by
  obtain ⟨frame, hframe, hlen⟩ := h
  refine ⟨frame, hframe, ?_⟩
  rw [sent, hframe, Option.getD_some, List.take_of_length_le hlen]

/-- What goes out on a socket that stays shut is a prefix of the frames. -/
theorem StaysShut.sent_isPrefix (sends : List SendAttempt) (responses : List IpcMessage)
    (hframes : sends.map SendAttempt.frame = responses.map ipcFrame) (hshut : StaysShut sends) :
    sends.flatMap SendAttempt.sent <+: responseStream responses := by
  induction sends generalizing responses with
  | nil => exact List.nil_prefix
  | cons a sends ih =>
    cases responses with
    | nil => cases hframes
    | cons r rs =>
      obtain ⟨hframe, hrest⟩ := List.cons.inj hframes
      obtain ⟨hlater, hshut'⟩ := List.pairwise_cons.mp hshut
      rw [List.flatMap_cons, responseStream, ← hframe]
      by_cases hcomplete : a.Complete
      · obtain ⟨frame, hf, hsent⟩ := hcomplete.sent_eq
        rw [hf, hsent]
        exact (List.prefix_append_right_inj frame).mpr (ih rs hrest hshut')
      · -- The first response that is cut is the last thing that goes out.
        have hnil : sends.flatMap SendAttempt.sent = [] := by
          rw [List.flatMap_eq_nil_iff]
          intro b hb
          have hnone : b.accepted = 0 := (hlater b hb).resolve_left hcomplete
          rw [SendAttempt.sent, hnone, List.take_zero]
        rw [hnil, List.append_nil]
        cases hf : a.frame with
        | none =>
          rw [SendAttempt.sent, hf]
          simp
        | some frame =>
          rw [SendAttempt.sent, hf]
          exact (List.take_prefix _ _).trans (List.prefix_append _ _)

/-- **When the response stream is intact.** In every run, an open connection whose socket stays shut
once it has not taken a whole response has been sent a prefix of the frames of its responses, and has
had one response for each request. -/
theorem ipc_response_stream_intact {σ : Type} (accepts : ℕ → ℕ)
    (handler : Option (σ → IpcMessage → IpcMessage × σ)) (userData : σ)
    (past : List (Record (IpcWorld σ) IpcEvent Unit)) (w : IpcWorld σ)
    (hrun : IpcRun accepts handler userData past w) (d : ℕ) (hopen : (w.conns d).closed = none)
    (hshut : StaysShut (w.conns d).sends) :
    (w.conns d).sent <+: responseStream (w.conns d).responses ∧
      (w.conns d).responses.length = (w.conns d).requests.length := by
  obtain ⟨hlength, hframes⟩ := ((ipcInv_of_run hrun).conn d).tidy hopen
  exact ⟨StaysShut.sent_isPrefix _ _ hframes hshut, hlength⟩

/-- Two requests in one arrival; the socket takes `first` bytes of the first response, and then all
that is offered. -/
def pipelinedExample (first : ℕ) : List (Record (IpcWorld Unit) IpcEvent Unit) × IpcWorld Unit :=
  exec (ipcStep fun k => if k = 0 then first else 100) (ipcServerInit none ())
    [.acceptClient true, .clientData 0 (.data [0, 0, 0, 6, 1, 1, 0, 0, 0, 6, 1, 2])]

/-- A first response that goes out whole keeps the stream intact. -/
theorem ipc_response_stream_intact_pipelined :
    ((pipelinedExample 100).2.conns 0).closed = none ∧
      ((pipelinedExample 100).2.conns 0).sent.length = 34 ∧
      ((pipelinedExample 100).2.conns 0).sent <+:
        responseStream ((pipelinedExample 100).2.conns 0).responses :=
  ⟨by decide +kernel, by decide +kernel, (ipc_response_stream_intact _ none () _ _
    (run_exec (ipcStep fun k => if k = 0 then 100 else 100) _ _) 0 (by decide +kernel)
    (by decide +kernel)).1⟩

/-- The stream is broken: of the first response three bytes go out, the second follows whole, and the
connection stays open. -/
theorem ipc_response_stream_broken :
    IpcRun (fun k => if k = 0 then 3 else 100) none () (pipelinedExample 3).1 (pipelinedExample 3).2 ∧
      ((pipelinedExample 3).2.conns 0).closed = none ∧
      ¬ ((pipelinedExample 3).2.conns 0).sent <+:
        responseStream ((pipelinedExample 3).2.conns 0).responses :=
  ⟨run_exec _ _ _, by decide +kernel, by decide +kernel⟩

end CGateway
