import Mathlib.Data.Bool.AllAny
import CGateway.Ipc.Reassembly
import CGateway.Lib.CString
import CGateway.Lib.JsonText

/-! # The bridge from IPC to NATS

`ipc_nats_bridge.c`: a message handler for the IPC server. It writes the payload of a task request into the
envelope of the Router as it is, between fixed pieces of text, and hands the result to the NATS client.

The payload is not looked at. One that is no JSON value changes the envelope: it can end the object early, or
bring further members; and a NUL in it ends what is written of it.

* `bridgeMessageHandler` — one call, with the text it hands to NATS;
* `servesWith_of_run` — what a handler keeps true of its user data, a run of the server keeps;
* `IsEnvelope` — the envelope meant: the six members, once each, with the payload in its place;
* `bridge_envelope_iff` — in every run, the text handed to NATS is the envelope of its request if and only if
  the payload is empty or a JSON text;
* `stub_reply_complete` — without NATS, what is echoed for an accepted request is never cut. -/

namespace CGateway

open Bytes CString Machine JsonText

/-! ### The bridge -/

/-- The bridge (`struct ipc_nats_bridge_t`). -/
structure IpcNatsBridge where
  enableNats : Bool
  totalRequests : UInt64
  natsErrors : UInt64
  deriving DecidableEq, Repr

/-- `ipc_nats_bridge_init`: `none` for NULL, which a NULL configuration gives. -/
def ipcNatsBridgeInit (config : Option Bool) : Option IpcNatsBridge :=
  config.map fun enableNats => ⟨enableNats, 0, 0⟩

/-- What one call gets from outside: the time, and what the NATS client returns and leaves in the response
buffer. -/
structure BridgeHost where
  tvSec : ℤ
  tvNsec : ℤ
  natsRequestDecide : List UInt8 → ℤ × List UInt8

/-- The size of `nats_req` and `nats_resp`. -/
def natsBufSize : ℕ := 8192

/-- `generate_task_id` into 64 bytes. -/
def generateTaskId (h : BridgeHost) : List UInt8 :=
  (ascii "task_" ++ decimal h.tvSec ++ ascii "_" ++ decimal h.tvNsec).take 63

/-- The envelope up to the payload. -/
def envelopeHead (taskId : List UInt8) : List UInt8 :=
  ascii "\x7b\"from\":\"ide@localhost\",\"to\":\"router\",\"message_id\":\"" ++ taskId ++
    ascii "\",\"tenant_id\":\"default\",\"policy_id\":\"default\",\"input\":"

/-- The argument of `%s`: the C string at the pointer, or the default for NULL. -/
def payloadOr (default : List UInt8) (msg : IpcMessage) : List UInt8 :=
  (msg.payload.map cstr).getD default

/-- `transform_to_nats_request`; `none` for -1. -/
def transformToNatsRequest (h : BridgeHost) (ipcMsg : IpcMessage) : Option (List UInt8) :=
  let written := envelopeHead (generateTaskId h) ++ payloadOr (ascii "\x7b\x7d") ipcMsg ++ ascii "\x7d"
  if written.length ≥ natsBufSize then none else some written

/-- A message made of a copy of a C string (`strdup`, `strlen`). -/
def IpcMessage.ofCopy (type : UInt32) (text : List UInt8) (h : text.length < natsBufSize) : IpcMessage where
  type := type
  payload := some (text ++ [0])
  payloadLen := UInt64.ofNat text.length
  readable := by
    rw [natsBufSize] at h
    rw [UInt64.toNat_ofNat', Nat.mod_eq_of_lt (by omega), Option.getD_some, List.length_append]
    omega
  fits := by
    rw [natsBufSize] at h
    rw [Option.getD_some, List.length_append, List.length_singleton]
    omega

theorem IpcMessage.content_ofCopy (type : UInt32) (text : List UInt8) (h : text.length < natsBufSize) :
    (IpcMessage.ofCopy type text h).content = (type, text) := by
  have hlen : (UInt64.ofNat text.length).toNat = text.length := by
    rw [natsBufSize] at h
    rw [UInt64.toNat_ofNat', Nat.mod_eq_of_lt (by omega)]
  simp only [content, IpcMessage.bytes, ofCopy, hlen, Option.getD_some, List.take_left]

/-- `ipc_create_error_response` on a response that was cleared. -/
def bridgeError (err : IpcError) (errorMsg : String) : IpcMessage :=
  match ipcCreateErrorResponse err (some (ascii errorMsg)) with
  | .ok response => response
  | .error _ => .ofBytes ipcMsgResponseError [] (by decide)

/-- What the response buffer holds. -/
def natsResp (reply : List UInt8) : List UInt8 := cstr (reply.take (natsBufSize - 1))

theorem length_natsResp_lt (reply : List UInt8) : (natsResp reply).length < natsBufSize := by
  have hcstr : (natsResp reply).length ≤ (reply.take (natsBufSize - 1)).length := (List.takeWhile_sublist _).length_le
  have htake : (reply.take (natsBufSize - 1)).length ≤ natsBufSize - 1 := List.length_take_le ..
  have hpos : 0 < natsBufSize := by decide
  omega

/-- `transform_to_ipc_response`. -/
def transformToIpcResponse (reply : List UInt8) (natsRc : ℤ) : IpcMessage :=
  if natsRc = 0 then .ofCopy ipcMsgResponseOk (natsResp reply) (length_natsResp_lt reply)
  else bridgeError .internal "NATS request failed"

/-- The reply of the stub. -/
def stubReply (request : IpcMessage) : List UInt8 :=
  ascii "\x7b\"message_id\":\"stub\",\"status\":\"ok\",\"result\":\x7b\"echo\":" ++
    payloadOr (ascii "null") request ++ ascii "\x7d\x7d"

/-- The response of one call, the bridge behind it, and the text handed to NATS. -/
structure BridgeOutcome where
  response : IpcMessage
  bridge : Option IpcNatsBridge
  handed : Option (List UInt8)

/-- A task request. -/
def isTask (type : UInt32) : Bool :=
  type == ipcMsgTaskSubmit || type == ipcMsgTaskQuery || type == ipcMsgTaskCancel

/-- The part of `bridge_message_handler` for the task requests. -/
def bridgeForward (h : BridgeHost) (bridge : IpcNatsBridge) (request : IpcMessage) : BridgeOutcome :=
  match transformToNatsRequest h request with
  | none =>
      ⟨bridgeError .invalidPayload "Failed to transform request",
        some { bridge with natsErrors := bridge.natsErrors + 1 }, none⟩
  | some natsReq =>
      let (natsRc, reply) :=
        if bridge.enableNats then h.natsRequestDecide natsReq else (0, stubReply request)
      ⟨transformToIpcResponse reply natsRc,
        some (if natsRc ≠ 0 then { bridge with natsErrors := bridge.natsErrors + 1 } else bridge),
        if bridge.enableNats then some natsReq else none⟩

/-- `bridge_message_handler`. -/
def bridgeMessageHandler (h : BridgeHost) (bridge : Option IpcNatsBridge) (request : IpcMessage) :
    BridgeOutcome :=
  match bridge with
  | none => ⟨bridgeError .internal "Bridge not initialized", none, none⟩
  | some bridge =>
      let bridge := { bridge with totalRequests := bridge.totalRequests + 1 }
      if request.type = ipcMsgPing then ⟨.ofBytes ipcMsgPong [] (by decide), some bridge, none⟩
      else if isTask request.type then bridgeForward h bridge request
      else ⟨bridgeError .invalidType "Unsupported message type", some bridge, none⟩

/-- The user data of the server: the bridge, the number of its calls, and the requests it handed to NATS with
the text of each. -/
structure BridgeData where
  bridge : Option IpcNatsBridge
  calls : ℕ := 0
  handed : List (IpcMessage × List UInt8) := []

/-- The bridge as the handler of the server, in the environment of each call. -/
def bridgeHandler (hosts : ℕ → BridgeHost) (data : BridgeData) (request : IpcMessage) :
    IpcMessage × BridgeData :=
  let outcome := bridgeMessageHandler (hosts data.calls) data.bridge request
  (outcome.response,
    { bridge := outcome.bridge
      calls := data.calls + 1
      handed := data.handed ++ (outcome.handed.map (request, ·)).toList })

/-! ### The user data of a run -/

section UserData

variable {σ : Type} {handler : σ → IpcMessage → IpcMessage × σ} {P : σ → Prop} {w : IpcWorld σ}

/-- The server has this handler, and its user data this property. -/
def ServesWith (handler : σ → IpcMessage → IpcMessage × σ) (P : σ → Prop) (w : IpcWorld σ) : Prop :=
  w.server.messageHandler = some handler ∧ P w.server.userData

theorem servesWith_closeClient (h : ServesWith handler P w) (slot : Fin ipcMaxConnections)
    (reason : CloseReason) : ServesWith handler P (ipcCloseClient w slot reason) := by
  rw [ipcCloseClient]
  split <;> exact h

theorem servesWith_acceptClient (h : ServesWith handler P w) (granted : Bool) :
    ServesWith handler P (ipcAcceptClient w granted) := by
  rw [ipcAcceptClient]
  split
  · dsimp only
    split <;> exact h
  · exact h

theorem servesWith_sendMessage (h : ServesWith handler P w) (accepts : ℕ → ℕ) (fd : ℕ) (msg : IpcMessage) :
    ServesWith handler P (ipcSendMessage accepts w fd msg) := by
  rw [ServesWith, (ipcSendMessage_spec accepts w fd msg).1]
  exact h

theorem servesWith_refuseFrame (h : ServesWith handler P w) (accepts : ℕ → ℕ)
    (slot : Fin ipcMaxConnections) (err : IpcError) : ServesWith handler P (ipcRefuseFrame accepts w slot err) := by
  rw [ipcRefuseFrame]
  split
  · exact servesWith_closeClient (servesWith_sendMessage h accepts _ _) slot _
  · exact servesWith_closeClient h slot _

/-- A request changes the user data as the handler does. -/
theorem servesWith_serveRequest (h : ServesWith handler P w) (accepts : ℕ → ℕ) (slot : Fin ipcMaxConnections)
    (frameLen : ℕ) {req : IpcMessage} (hkeeps : P w.server.userData → P (handler w.server.userData req).2) :
    ServesWith handler P (ipcServeRequest accepts w slot frameLen req) := by
  obtain ⟨hhandler, hdata⟩ := h
  have hhandled : ServesWith handler P (ipcHandleMessage w (w.server.clients slot).fd req).1 := by
    rw [ipcHandleMessage, hhandler]
    exact ⟨hhandler, hkeeps hdata⟩
  -- taking the frame out of the buffer changes a slot only
  exact servesWith_sendMessage hhandled accepts _ _

variable (hkeeps : ∀ data frame req, ipcDecodeMessage frame = .ok req → P data → P (handler data req).2)

include hkeeps

theorem servesWith_frameLoop (accepts : ℕ → ℕ) (slot : Fin ipcMaxConnections) (fuel : ℕ)
    (h : ServesWith handler P w) : ServesWith handler P (ipcFrameLoop accepts slot fuel w) := by
  induction fuel generalizing w with
  | zero => exact h
  | succ fuel ih =>
    rw [ipcFrameLoop]
    dsimp only
    split_ifs
    · exact h
    · exact servesWith_closeClient h slot _
    · exact h
    · cases hdecode : ipcDecodeMessage
          (load (w.server.clients slot).recvBuf 0 (beNat (load (w.server.clients slot).recvBuf 0 4))) with
      | error err => exact servesWith_refuseFrame h accepts slot err
      | ok req => exact ih (servesWith_serveRequest h accepts slot _ (hkeeps _ _ req hdecode))

theorem servesWith_step (accepts : ℕ → ℕ) (h : ServesWith handler P w) (event : IpcEvent) :
    ServesWith handler P (ipcStep accepts w event).1 := by
  cases event with
  | acceptClient granted => exact servesWith_acceptClient h granted
  | closeClient slot => exact servesWith_closeClient h slot _
  | clientData slot result =>
    rw [ipcStep]
    dsimp only
    split_ifs
    · cases result with
      | data available =>
        rw [ipcHandleClientData]
        dsimp only
        split_ifs
        · exact servesWith_closeClient h slot _
        · exact servesWith_frameLoop hkeeps accepts slot _ h
      | wouldBlock => exact h
      | failed => exact servesWith_closeClient h slot _
    · exact h

/-- **The user data of a run.** What holds of the user data at first, and is kept by the handler on every
request that decodes, holds in every run. -/
theorem servesWith_of_run {accepts : ℕ → ℕ} {data : σ} {past : List (Record (IpcWorld σ) IpcEvent Unit)}
    (hstart : P data) (hrun : IpcRun accepts (some handler) data past w) : ServesWith handler P w := by
  refine Run.invariant (P := fun _ w => ServesWith handler P w) ⟨rfl, hstart⟩ ?_ hrun
  intro past w event h
  exact servesWith_step hkeeps accepts h event

end UserData

/-- What is handed to NATS for a task. -/
theorem handed_bridgeForward (h : BridgeHost) (bridge : IpcNatsBridge) (request : IpcMessage) :
    (bridgeForward h bridge request).handed = if bridge.enableNats then transformToNatsRequest h request else none := by
  unfold bridgeForward
  cases transformToNatsRequest h request with
  | none => exact (ite_self none).symm
  | some natsReq => rfl

variable {h : BridgeHost} {request : IpcMessage} {taskId : List UInt8}

/-- A request that is handed to NATS is a task, and its text the one written. -/
theorem handed_eq_some {bridge : Option IpcNatsBridge} {text : List UInt8}
    (hhanded : (bridgeMessageHandler h bridge request).handed = some text) :
    isTask request.type = true ∧ transformToNatsRequest h request = some text := by
  cases bridge with
  | none => cases hhanded
  | some bridge =>
    unfold bridgeMessageHandler at hhanded
    dsimp only at hhanded
    split_ifs at hhanded with hping htask
    rw [handed_bridgeForward, Option.ite_none_right_eq_some] at hhanded
    exact ⟨htask, hhanded.2⟩

/-- The texts of a run are written from requests that decoded. -/
theorem handed_of_run {accepts : ℕ → ℕ} {hosts : ℕ → BridgeHost} {bridge : Option IpcNatsBridge}
    {past : List (Record (IpcWorld BridgeData) IpcEvent Unit)} {w : IpcWorld BridgeData}
    (hrun : IpcRun accepts (some (bridgeHandler hosts)) ⟨bridge, 0, []⟩ past w) :
    ∀ p ∈ w.server.userData.handed, isTask p.1.type = true ∧
      (∃ frame, ipcDecodeMessage frame = .ok p.1) ∧ ∃ h, transformToNatsRequest h p.1 = some p.2 := by
  refine (servesWith_of_run (P := fun data => ∀ p ∈ data.handed, isTask p.1.type = true ∧
    (∃ frame, ipcDecodeMessage frame = .ok p.1) ∧ ∃ h, transformToNatsRequest h p.1 = some p.2)
    ?_ nofun hrun).2
  intro data frame request hdecode hbefore p hp
  rcases List.mem_append.mp hp with hp | hp
  · exact hbefore p hp
  · -- the text of this call
    rw [Option.mem_toList, Option.map_eq_some_iff] at hp
    obtain ⟨text, hhanded, rfl⟩ := hp
    obtain ⟨htask, htransform⟩ := handed_eq_some hhanded
    exact ⟨htask, ⟨frame, hdecode⟩, _, htransform⟩

/-! ### The envelope -/

/-- A JSON string of characters that need no escape. -/
def quoted (s : String) : List UInt8 := ascii "\"" ++ ascii s ++ ascii "\""

/-- The members of the envelope. -/
def envelopeNames : List (List UInt8) :=
  ["from", "to", "message_id", "tenant_id", "policy_id", "input"].map quoted

/-- The text is the envelope of this payload: one JSON object with the members meant, each once, the tenant is
the default one, and the input is the whole payload, or an empty object for none. -/
def IsEnvelope (payload text : List UInt8) : Prop :=
  ∃ members ∈ JsonText.members text,
    (members.map Prod.fst).Perm envelopeNames ∧
      (quoted "tenant_id", quoted "default") ∈ members ∧
      (quoted "input", if payload = [] then ascii "\x7b\x7d" else payload) ∈ members

instance (payload text : List UInt8) : Decidable (IsEnvelope payload text) :=
  inferInstanceAs (Decidable (∃ members ∈ JsonText.members text, _))

/-- The members in front of the input. -/
def envelopeFront (taskId : List UInt8) : List (List UInt8 × List UInt8) :=
  [(quoted "from", quoted "ide@localhost"), (quoted "to", quoted "router"),
    (quoted "message_id", ascii "\"" ++ taskId ++ ascii "\""), (quoted "tenant_id", quoted "default"),
    (quoted "policy_id", quoted "default")]

/-- A task id is a text without escapes. -/
theorem isPlain_generateTaskId (h : BridgeHost) : ∀ b ∈ generateTaskId h, IsPlain b := by
  have hdecimal : ∀ (n : ℤ), ∀ b ∈ decimal n, IsPlain b := by
    intro n b hb
    rcases toNat_of_mem_decimal hb with rfl | hdigit
    · decide
    · refine ⟨?_, ?_, ?_, ?_⟩
      · rw [UInt8.le_iff_toNat_le]
        exact le_trans (by decide) hdigit.1
      · rw [UInt8.lt_iff_toNat_lt]
        exact lt_of_le_of_lt hdigit.2 (by decide)
      · rintro rfl
        exact absurd hdigit.1 (by decide)
      · rintro rfl
        exact absurd hdigit.2 (by decide)
  intro b hb
  have hb := List.mem_of_mem_take hb
  simp only [List.mem_append] at hb
  rcases hb with ((hb | hb) | hb) | hb
  · exact (by decide +kernel : ∀ b ∈ ascii "task_", IsPlain b) b hb
  · exact hdecimal _ b hb
  · exact (by decide +kernel : ∀ b ∈ ascii "_", IsPlain b) b hb
  · exact hdecimal _ b hb

/-- What is read of the envelope up to the payload. -/
theorem foldlM_read_envelopeHead (hplain : ∀ b ∈ taskId, IsPlain b) :
    (envelopeHead taskId).foldlM Scan.read {} =
      some ⟨.value, [.object], [],
        [] :: ((envelopeFront taskId).flatMap (fun p => [p.1, p.2]) ++ [quoted "input"])⟩ := by
  have hbefore : (ascii "\x7b\"from\":\"ide@localhost\",\"to\":\"router\",\"message_id\":\"").foldlM
      Scan.read {} =
        some ⟨.text false, [.object], ascii "\"",
          [[], quoted "from", quoted "ide@localhost", quoted "to", quoted "router", quoted "message_id"]⟩ := by
    repeat rw [ascii_ofList]
    decide
  have hbehind : (ascii "\",\"tenant_id\":\"default\",\"policy_id\":\"default\",\"input\":").foldlM
      Scan.read ⟨.text false, [.object], [], []⟩ =
        some ⟨.value, [.object], [],
          [ascii "\"", quoted "tenant_id", quoted "default", quoted "policy_id", quoted "default",
            quoted "input"]⟩ := by
    repeat rw [ascii_ofList]
    decide
  -- in three parts: between two fixed texts the task id stays in its string
  rw [envelopeHead, List.foldlM_append, List.foldlM_append, hbefore]
  show ((taskId.foldlM Scan.read _).bind fun s => List.foldlM Scan.read s _) = _
  rw [foldlM_read_plain hplain, Option.bind_some]
  have hshift := foldlM_read_behind (ascii "\"" ++ taskId)
    [[], quoted "from", quoted "ide@localhost", quoted "to", quoted "router", quoted "message_id"]
    (ascii "\",\"tenant_id\":\"default\",\"policy_id\":\"default\",\"input\":")
    ⟨.text false, [.object], [], []⟩
  rw [hbehind, Scan.behind, List.append_nil] at hshift
  exact hshift

theorem ascii_envelopeHead (hplain : ∀ b ∈ taskId, IsPlain b) : ∀ b ∈ envelopeHead taskId, b < 128 := by
  intro b hb
  simp only [envelopeHead, List.mem_append] at hb
  rcases hb with (hb | hb) | hb
  · revert b
    rw [ascii_ofList]
    exact List.all_iff_forall_prop.mp (by decide)
  · exact (hplain b hb).2.1
  · revert b
    rw [ascii_ofList]
    exact List.all_iff_forall_prop.mp (by decide)

/-- A text in the place of the input is the whole input if and only if it is a JSON text. -/
theorem isEnvelope_head_iff (hplain : ∀ b ∈ taskId, IsPlain b) (payload input : List UInt8) :
    IsEnvelope payload (envelopeHead taskId ++ input ++ ascii "\x7d") ↔
      IsText input ∧ (if payload = [] then ascii "\x7b\x7d" else payload) = input := by
  have hmembers := members_embed_iff (foldlM_read_envelopeHead hplain) (ascii_envelopeHead hplain) input
  constructor
  · rintro ⟨all, hall, hnames, -, hinput⟩
    have hcount : all.length = 5 + 1 := by
      rw [← List.length_map, hnames.length_eq]
      rfl
    obtain ⟨htext, rfl⟩ := (hmembers all).mp ⟨hall, hcount⟩
    refine ⟨htext, ?_⟩
    rcases List.mem_append.mp hinput with hfront | hlast
    · have hname : quoted "input" ∈ envelopeNames.take 5 := List.mem_map_of_mem (f := Prod.fst) hfront
      exact absurd hname (by decide)
    · exact (Prod.mk.inj (List.mem_singleton.mp hlast)).2
  · rintro ⟨htext, hinput⟩
    have hall := ((hmembers _).mpr ⟨htext, rfl⟩).1
    refine ⟨_, hall, List.Perm.refl _, ?_, ?_⟩
    · exact List.mem_append_left _ (by simp [envelopeFront])
    · rw [hinput]
      exact List.mem_append_right _ (List.mem_singleton_self _)

/-- **The envelope of a request.** -/
theorem isEnvelope_iff {frame text : List UInt8} (hdecode : ipcDecodeMessage frame = .ok request)
    (htransform : transformToNatsRequest h request = some text) :
    IsEnvelope request.bytes text ↔ request.bytes = [] ∨ IsText request.bytes := by
  have htext : envelopeHead (generateTaskId h) ++ payloadOr (ascii "\x7b\x7d") request ++ ascii "\x7d" = text := by
    rw [transformToNatsRequest] at htransform
    split_ifs at htransform
    exact Option.some.inj htransform
  have hinput : payloadOr (ascii "\x7b\x7d") request =
      if request.bytes = [] then ascii "\x7b\x7d" else cstr request.bytes := by
    rw [payloadOr, payload_of_decode hdecode]
    split_ifs
    · rfl
    · rw [Option.map_some, Option.getD_some, cstr_append_zero]
  rw [← htext, isEnvelope_head_iff (isPlain_generateTaskId h), hinput]
  by_cases hempty : request.bytes = []
  · rw [if_pos hempty, if_pos hempty]
    exact ⟨fun _ => .inl hempty, fun _ => ⟨by decide, rfl⟩⟩
  · rw [if_neg hempty, if_neg hempty, or_iff_right hempty]
    constructor
    · rintro ⟨htext, hwhole⟩
      rw [hwhole]
      exact htext
    · -- a JSON text has no NUL, so nothing of it is cut off
      intro htext
      have hwhole := cstr_of_no_zero htext.zero_notMem
      rw [hwhole]
      exact ⟨htext, rfl⟩

/-- **The text handed to NATS.** In every run of the server with the bridge, whatever the clients send, the text
handed to NATS for a request is its envelope if and only if the payload is empty or a JSON text. -/
theorem bridge_envelope_iff (accepts : ℕ → ℕ) (hosts : ℕ → BridgeHost) (bridge : Option IpcNatsBridge)
    (past : List (Record (IpcWorld BridgeData) IpcEvent Unit)) (w : IpcWorld BridgeData)
    (hrun : IpcRun accepts (some (bridgeHandler hosts)) ⟨bridge, 0, []⟩ past w) (request : IpcMessage)
    (text : List UInt8) (hhanded : (request, text) ∈ w.server.userData.handed) :
    IsEnvelope request.bytes text ↔ request.bytes = [] ∨ IsText request.bytes := by
  obtain ⟨-, ⟨frame, hdecode⟩, h, htransform⟩ := handed_of_run hrun _ hhanded
  exact isEnvelope_iff hdecode htransform

/-- A time, and a NATS client that answers with nothing. -/
def quietHost : BridgeHost := ⟨1, 2, fun _ => (0, [])⟩

/-- A client connects and sends one task request with this payload. -/
def bridgeExample (payload : List UInt8) :
    List (Record (IpcWorld BridgeData) IpcEvent Unit) × IpcWorld BridgeData :=
  exec (ipcStep fun _ => 100)
    (ipcServerInit (some (bridgeHandler fun _ => quietHost)) ⟨ipcNatsBridgeInit (some true), 0, []⟩)
    [.acceptClient true,
      .clientData 0 (.data (beBytes (6 + payload.length) ++ [ipcProtocolVersion, 1] ++ payload))]

theorem run_bridgeExample (payload : List UInt8) :
    IpcRun (fun _ => 100) (some (bridgeHandler fun _ => quietHost)) ⟨ipcNatsBridgeInit (some true), 0, []⟩
      (bridgeExample payload).1 (bridgeExample payload).2 :=
  run_exec _ _ _

/-- A payload that is an object. -/
def objectPayload : List UInt8 := ascii "\x7b\"line\":42\x7d"

/-- A request with an object. -/
theorem bridge_envelope_object :
    (bridgeExample objectPayload).2.server.userData.handed.map (fun p => p.1.bytes) = [objectPayload] ∧
      ∀ p ∈ (bridgeExample objectPayload).2.server.userData.handed, IsEnvelope p.1.bytes p.2 := by
  have hpayload : (bridgeExample objectPayload).2.server.userData.handed.map (fun p => p.1.bytes) =
      [objectPayload] := by
    decide +kernel
  refine ⟨hpayload, ?_⟩
  intro p hp
  have hbytes := List.mem_map_of_mem (f := fun p => p.1.bytes) hp
  rw [hpayload, List.mem_singleton] at hbytes
  refine (bridge_envelope_iff _ _ _ _ _ (run_bridgeExample objectPayload) p.1 p.2 hp).mpr (.inr ?_)
  rw [hbytes]
  decide +kernel

/-- One text is handed to NATS for this payload, and it is not the envelope. -/
def BreaksEnvelope (payload : List UInt8) : Prop :=
  (bridgeExample payload).2.server.userData.handed.map (fun p => p.1.bytes) = [payload] ∧
    ∀ p ∈ (bridgeExample payload).2.server.userData.handed, ¬ IsEnvelope p.1.bytes p.2

instance (payload : List UInt8) : Decidable (BreaksEnvelope payload) := inferInstanceAs (Decidable (_ ∧ _))

/-- **Broken envelopes.** A payload brings a second tenant, and one is cut at its NUL. -/
theorem bridge_envelope_forged :
    BreaksEnvelope (ascii "1,\"tenant_id\":\"evil\"") ∧
      BreaksEnvelope (ascii "1" ++ [0] ++ ascii "2") := by
  constructor <;> decide +kernel

/-! ### The stub

Without NATS the payload is echoed into the response buffer, with no look at the length of the reply. The only check is
the one on the envelope, which is thrown away: a template that is longer than the reply, whatever the task id. -/

/-- The default of a template is at most as much longer as it is longer than the other. -/
theorem length_payloadOr_le {default other : List UInt8} {n : ℕ} (h : other.length ≤ default.length + n)
    (msg : IpcMessage) : (payloadOr other msg).length ≤ (payloadOr default msg).length + n := by
  rw [payloadOr, payloadOr]
  cases msg.payload with
  | none => exact h
  | some buffer => exact Nat.le_add_right _ n

/-- The reply is shorter than an envelope of the same payload. -/
theorem length_stubReply_lt (request : IpcMessage) (taskId : List UInt8) :
    (stubReply request).length <
      (envelopeHead taskId ++ payloadOr (ascii "\x7b\x7d") request ++ ascii "\x7d").length := by
  have hpayload : (payloadOr (ascii "null") request).length ≤ (payloadOr (ascii "\x7b\x7d") request).length + 2 :=
    length_payloadOr_le (by decide) request
  have hreply : (ascii "\x7b\"message_id\":\"stub\",\"status\":\"ok\",\"result\":\x7b\"echo\":").length = 52 :=
    length_ascii_ofList _
  have hhead : 52 + 4 ≤ (envelopeHead taskId).length := by
    have hfront : (ascii "\x7b\"from\":\"ide@localhost\",\"to\":\"router\",\"message_id\":\"").length = 52 :=
      length_ascii_ofList _
    have hbehind : 4 ≤ (ascii "\",\"tenant_id\":\"default\",\"policy_id\":\"default\",\"input\":").length := by
      rw [length_ascii_ofList]
      decide
    rw [envelopeHead, List.length_append, List.length_append, hfront]
    omega
  have hreplyEnd : (ascii "\x7d\x7d").length = 2 := length_ascii_ofList _
  have henvelopeEnd : (ascii "\x7d").length = 1 := length_ascii_ofList _
  rw [stubReply, List.length_append, List.length_append, List.length_append, List.length_append]
  omega

theorem zero_notMem_stubReply (request : IpcMessage) : (0 : UInt8) ∉ stubReply request := by
  have hpayload : (0 : UInt8) ∉ payloadOr (ascii "null") request := by
    rw [payloadOr]
    cases request.payload with
    | none => decide
    | some buffer => exact zero_notMem_cstr buffer
  have hhead : (0 : UInt8) ∉ ascii "\x7b\"message_id\":\"stub\",\"status\":\"ok\",\"result\":\x7b\"echo\":" := by
    rw [ascii_ofList]
    decide
  rw [stubReply, List.mem_append, List.mem_append, not_or, not_or]
  exact ⟨⟨hhead, hpayload⟩, by decide⟩

/-- A reply with an accepted envelope is in the response buffer as a whole. -/
theorem natsResp_stubReply (haccepted : (transformToNatsRequest h request).isSome = true) :
    natsResp (stubReply request) = stubReply request := by
  have hlen : (stubReply request).length ≤ natsBufSize - 1 := by
    have hshort := length_stubReply_lt request (generateTaskId h)
    dsimp only [transformToNatsRequest] at haccepted
    split_ifs at haccepted with hfits
    · cases haccepted
    · omega
  rw [natsResp, List.take_of_length_le hlen, cstr_of_no_zero (zero_notMem_stubReply request)]

/-- **The stub echoes in full.** Whatever the clock, a task whose envelope is accepted is answered with the whole reply:
the template with all of the payload, up to its NUL, or `null` in its place. -/
theorem stub_reply_complete (h : BridgeHost) (bridge : IpcNatsBridge) (request : IpcMessage)
    (hstub : bridge.enableNats = false) (htask : isTask request.type = true)
    (haccepted : (transformToNatsRequest h request).isSome = true) :
    natsResp (stubReply request) = stubReply request ∧
      (bridgeMessageHandler h (some bridge) request).response.content =
        (ipcMsgResponseOk, ascii "\x7b\"message_id\":\"stub\",\"status\":\"ok\",\"result\":\x7b\"echo\":" ++
            (request.payload.map cstr).getD (ascii "null") ++ ascii "\x7d\x7d") := by
  have hwhole := natsResp_stubReply haccepted
  refine ⟨hwhole, ?_⟩
  have hping : request.type ≠ ipcMsgPing := by
    intro htype
    rw [htype] at htask
    exact absurd htask (by decide)
  obtain ⟨natsReq, htransform⟩ := Option.isSome_iff_exists.mp haccepted
  have hresponse : (bridgeMessageHandler h (some bridge) request).response
      = .ofCopy ipcMsgResponseOk (natsResp (stubReply request)) (length_natsResp_lt _) := by
    simp only [bridgeMessageHandler, if_neg hping, if_pos htask, bridgeForward, htransform, hstub]
    rfl
  rw [hresponse, IpcMessage.content_ofCopy, hwhole]
  rfl

/-- A task that is echoed. -/
theorem stub_reply_object :
    (bridgeMessageHandler quietHost (ipcNatsBridgeInit (some false))
      (.ofBytes ipcMsgTaskSubmit objectPayload (by decide))).response.content =
        (ipcMsgResponseOk, ascii "\x7b\"message_id\":\"stub\",\"status\":\"ok\",\"result\":\x7b\"echo\":" ++
          ((IpcMessage.ofBytes ipcMsgTaskSubmit objectPayload (by decide)).payload.map cstr).getD (ascii "null") ++
            ascii "\x7d\x7d") :=
  (stub_reply_complete quietHost ⟨false, 0, 0⟩ (.ofBytes ipcMsgTaskSubmit objectPayload (by decide)) rfl (by decide)
    (by decide +kernel)).2

end CGateway
