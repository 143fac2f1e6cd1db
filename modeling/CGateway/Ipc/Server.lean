import CGateway.Ipc.Protocol
import CGateway.Lib.Machine
import Mathlib.Data.Fin.Tuple.Basic
import Mathlib.Data.List.FinRange

/-! # The IPC server

`ipc_server.c`: a table of 64 clients on a Unix socket, driven by one event loop. The loop calls
`ipc_accept_client` when the listening socket is readable and `ipc_handle_client_data` when a client is,
so a run of the server is a sequence of such events.

The world of the model is the server and, for every connection it was ever offered, what passed over
it (`IpcConn`). A descriptor is the number of its connection: the kernel may give a number again after
`close`, but the server never touches a descriptor it has closed.

Outside the server: what `recv` returns (`RecvResult`), how many of the offered bytes each `send`
accepts (`accepts`, by the number of the call), and the message handler with its user data. -/

namespace CGateway

open Bytes Machine

/-- `IPC_MAX_CONNECTIONS`. -/
abbrev ipcMaxConnections : ℕ := 64

/-- One slot of the client table (`ipc_client_t`). -/
structure IpcClient where
  fd : ℕ
  recvBuf : Memory
  recvLen : ℕ
  active : Bool

/-- The received bytes that are not consumed yet. -/
def IpcClient.buffered (c : IpcClient) : List UInt8 := load c.recvBuf 0 c.recvLen

/-- The server (`struct ipc_server_t`): the table, the handler (`none` for NULL) and its user data. -/
structure IpcServer (σ : Type) where
  clients : Fin ipcMaxConnections → IpcClient
  messageHandler : Option (σ → IpcMessage → IpcMessage × σ)
  userData : σ

/-- Why the server closed a connection. -/
inductive CloseReason where
  /-- The peer went away, `recv` failed, or the client was disconnected from outside. -/
  | disconnected
  /-- The stream was malformed. -/
  | malformed
  /-- There was no free slot. -/
  | tableFull
  deriving DecidableEq, Repr

/-- One call of `ipc_send_message`: the frame (`none` if the message could not be encoded) and how
many bytes of it `send` accepted. -/
structure SendAttempt where
  frame : Option (List UInt8)
  accepted : ℕ
  deriving DecidableEq, Repr

/-- The bytes that went out. -/
def SendAttempt.sent (a : SendAttempt) : List UInt8 := (a.frame.getD []).take a.accepted

/-- The whole frame went out. -/
def SendAttempt.Complete (a : SendAttempt) : Prop :=
  ∃ frame ∈ a.frame, frame.length ≤ a.accepted

instance (a : SendAttempt) : Decidable a.Complete :=
  inferInstanceAs (Decidable (∃ frame ∈ a.frame, _))

/-- What passed over a connection, each list in order. -/
structure IpcConn where
  /-- The bytes `recv` returned. -/
  received : List UInt8
  /-- The requests given to the message handler. -/
  requests : List IpcMessage
  /-- The responses it gave. -/
  responses : List IpcMessage
  /-- The calls of `ipc_send_message`. -/
  sends : List SendAttempt
  /-- Whether and why the server closed it. -/
  closed : Option CloseReason

/-- The bytes the client has been sent. -/
def IpcConn.sent (c : IpcConn) : List UInt8 := c.sends.flatMap SendAttempt.sent

/-- A connection nothing has passed over. -/
def IpcConn.empty : IpcConn := ⟨[], [], [], [], none⟩

/-- The server and the connections it was offered, `next` of them. -/
structure IpcWorld (σ : Type) where
  server : IpcServer σ
  conns : ℕ → IpcConn
  next : ℕ
  /-- Calls of `send` so far. -/
  sendCalls : ℕ

/-- What `recv` returns: bytes (none of them at end of file), or an error. -/
inductive RecvResult where
  /-- The bytes waiting at the socket; as many as fit are read. -/
  | data (available : List UInt8)
  /-- `EWOULDBLOCK` or `EAGAIN`. -/
  | wouldBlock
  /-- Any other error. -/
  | failed
  deriving DecidableEq, Repr

namespace IpcWorld

variable {σ : Type}

/-- Change one slot. -/
def setClient (w : IpcWorld σ) (slot : Fin ipcMaxConnections) (c : IpcClient) : IpcWorld σ :=
  { w with server := { w.server with clients := Function.update w.server.clients slot c } }

/-- Change what passed over one connection. -/
def setConn (w : IpcWorld σ) (fd : ℕ) (c : IpcConn) : IpcWorld σ :=
  { w with conns := Function.update w.conns fd c }

end IpcWorld

section Server

variable {σ : Type}

/-- The world after `ipc_server_init` and `ipc_server_set_handler`: `calloc` has cleared the table. -/
def ipcServerInit (handler : Option (σ → IpcMessage → IpcMessage × σ)) (userData : σ) :
    IpcWorld σ where
  server :=
    { clients := fun _ => ⟨0, fun _ => 0, 0, false⟩, messageHandler := handler, userData := userData }
  conns := fun _ => .empty
  next := 0
  sendCalls := 0

/-- `ipc_close_client`. -/
def ipcCloseClient (w : IpcWorld σ) (slot : Fin ipcMaxConnections) (reason : CloseReason) :
    IpcWorld σ :=
  let client := w.server.clients slot
  if client.active then
    (w.setConn client.fd { w.conns client.fd with closed := some reason }).setClient slot
      { client with active := false, recvLen := 0 }
  else w

/-- `ipc_accept_client`. `granted` is false when `accept` or `set_nonblocking` fails. -/
def ipcAcceptClient (w : IpcWorld σ) (granted : Bool) : IpcWorld σ :=
  if granted then
    let clientFd := w.next
    let w := { w with next := w.next + 1 }
    match (List.finRange ipcMaxConnections).find? fun i => !(w.server.clients i).active with
    | some i =>
        w.setClient i { w.server.clients i with fd := clientFd, recvLen := 0, active := true }
    | none => w.setConn clientFd { w.conns clientFd with closed := some .tableFull }
  else w

/-- `ipc_send_message`. A short or failed `send` is only reported; its result is not used further. -/
def ipcSendMessage (accepts : ℕ → ℕ) (w : IpcWorld σ) (fd : ℕ) (msg : IpcMessage) : IpcWorld σ :=
  let conn := w.conns fd
  match ipcFrame msg with
  | none => w.setConn fd { conn with sends := conn.sends ++ [⟨none, 0⟩] }
  | some frame =>
      { w.setConn fd { conn with sends := conn.sends ++ [⟨some frame, min (accepts w.sendCalls) frame.length⟩] }
        with sendCalls := w.sendCalls + 1 }

/-- The response when no handler is set. -/
def ipcDefaultResponse : IpcMessage :=
  .ofBytes ipcMsgResponseOk (ascii "\x7b\"ok\":true\x7d") (by decide)

/-- Handling a decoded request: the handler's response and user data, or the default response. -/
def ipcHandleMessage (w : IpcWorld σ) (fd : ℕ) (req : IpcMessage) : IpcWorld σ × IpcMessage :=
  let (response, userData) := match w.server.messageHandler with
    | some handler => handler w.server.userData req
    | none => (ipcDefaultResponse, w.server.userData)
  let conn := w.conns fd
  ({ w.setConn fd { conn with requests := conn.requests ++ [req], responses := conn.responses ++ [response] }
    with server := { w.server with userData := userData } }, response)

/-- Remove the processed frame from the buffer. -/
def ipcConsumeFrame (w : IpcWorld σ) (slot : Fin ipcMaxConnections) (frameLen : ℕ) : IpcWorld σ :=
  let client := w.server.clients slot
  w.setClient slot
    { client with
      recvBuf := move client.recvBuf 0 frameLen (client.recvLen - frameLen)
      recvLen := client.recvLen - frameLen }

/-- A request that decoded: handle it, send the response, remove its frame. -/
def ipcServeRequest (accepts : ℕ → ℕ) (w : IpcWorld σ) (slot : Fin ipcMaxConnections)
    (frameLen : ℕ) (req : IpcMessage) : IpcWorld σ :=
  let fd := (w.server.clients slot).fd
  let (w, response) := ipcHandleMessage w fd req
  ipcConsumeFrame (ipcSendMessage accepts w fd response) slot frameLen

/-- A frame that did not decode: send the error response and close the connection. -/
def ipcRefuseFrame (accepts : ℕ → ℕ) (w : IpcWorld σ) (slot : Fin ipcMaxConnections)
    (err : IpcError) : IpcWorld σ :=
  match ipcCreateErrorResponse err none with
  | .ok errorResp =>
      ipcCloseClient (ipcSendMessage accepts w (w.server.clients slot).fd errorResp) slot .malformed
  | .error _ => ipcCloseClient w slot .malformed

/-- The loop of `ipc_handle_client_data` over the frames in the buffer. Every turn that goes on
consumes at least a header, so as many turns as there are bytes are enough. -/
def ipcFrameLoop (accepts : ℕ → ℕ) (slot : Fin ipcMaxConnections) : ℕ → IpcWorld σ → IpcWorld σ
  | 0, w => w
  | fuel + 1, w =>
      let client := w.server.clients slot
      if client.recvLen < ipcHeaderSize then w
      else
        let frameLen := beNat (load client.recvBuf 0 4)
        if frameLen > ipcMaxFrameSize then ipcCloseClient w slot .malformed
        else if client.recvLen < frameLen then w
        else match ipcDecodeMessage (load client.recvBuf 0 frameLen) with
          | .error err => ipcRefuseFrame accepts w slot err
          | .ok req => ipcFrameLoop accepts slot fuel (ipcServeRequest accepts w slot frameLen req)

/-- The bytes `recv` delivered, appended to the buffer. -/
def ipcBufferBytes (w : IpcWorld σ) (slot : Fin ipcMaxConnections) (chunk : List UInt8) :
    IpcWorld σ :=
  let client := w.server.clients slot
  let conn := w.conns client.fd
  (w.setConn client.fd { conn with received := conn.received ++ chunk }).setClient slot
    { client with
      recvBuf := store client.recvBuf client.recvLen chunk
      recvLen := client.recvLen + chunk.length }

/-- `ipc_handle_client_data`. `recv` reads at most the free space of the buffer; reading nothing means
end of file. -/
def ipcHandleClientData (accepts : ℕ → ℕ) (w : IpcWorld σ) (slot : Fin ipcMaxConnections) :
    RecvResult → IpcWorld σ
  | .data available =>
      let chunk := available.take (ipcMaxFrameSize - (w.server.clients slot).recvLen)
      if chunk.length = 0 then ipcCloseClient w slot .disconnected
      else
        let w := ipcBufferBytes w slot chunk
        ipcFrameLoop accepts slot ((w.server.clients slot).recvLen + 1) w
  | .wouldBlock => w
  | .failed => ipcCloseClient w slot .disconnected

/-- An event of the server. -/
inductive IpcEvent where
  /-- The listening socket is readable. -/
  | acceptClient (granted : Bool)
  /-- A client is disconnected. -/
  | closeClient (slot : Fin ipcMaxConnections)
  /-- A client is readable. -/
  | clientData (slot : Fin ipcMaxConnections) (result : RecvResult)

/-- One event. The event loop looks at the sockets of active slots only. -/
def ipcStep (accepts : ℕ → ℕ) (w : IpcWorld σ) : IpcEvent → IpcWorld σ × Unit
  | .acceptClient granted => (ipcAcceptClient w granted, ())
  | .closeClient slot => (ipcCloseClient w slot .disconnected, ())
  | .clientData slot result =>
      (if (w.server.clients slot).active then ipcHandleClientData accepts w slot result else w, ())

/-- A run of the server from its start. -/
abbrev IpcRun (accepts : ℕ → ℕ) (handler : Option (σ → IpcMessage → IpcMessage × σ)) (userData : σ) :
    List (Record (IpcWorld σ) IpcEvent Unit) → IpcWorld σ → Prop :=
  Run (ipcStep accepts) (ipcServerInit handler userData)

end Server

end CGateway
