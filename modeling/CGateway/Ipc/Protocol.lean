import CGateway.Lib.Bytes

/-! # The IPC wire protocol

`ipc_protocol.c`: messages between a client and the gateway, and the frames that carry them. A frame is
the total length in network byte order, a version byte, a type byte and the payload.

* `IpcMessage` — a message in memory, with the fact that its payload is readable;
* `ipcEncodeMessage` / `ipcDecodeMessage` — to a frame and back;
* `ipcCreateErrorResponse` — the error response and its text;
* `ipc_frame_codec` — encoding and decoding are inverse to each other;
* `encode_sizes_iff` — the sizes alone, for every length: where the guard of the encoder wraps around. -/

namespace CGateway

open Bytes

/-- `IPC_PROTOCOL_VERSION`. -/
def ipcProtocolVersion : UInt8 := 0x01

/-- `IPC_HEADER_SIZE`: length, version and type. -/
def ipcHeaderSize : ℕ := 6

/-- `IPC_MAX_FRAME_SIZE`: 4 MiB. -/
def ipcMaxFrameSize : ℕ := 4 * 1024 * 1024

/-- `IPC_MSG_TASK_SUBMIT`. -/
def ipcMsgTaskSubmit : UInt32 := 0x01

/-- `IPC_MSG_TASK_QUERY`. -/
def ipcMsgTaskQuery : UInt32 := 0x02

/-- `IPC_MSG_TASK_CANCEL`. -/
def ipcMsgTaskCancel : UInt32 := 0x03

/-- `IPC_MSG_RESPONSE_OK`. -/
def ipcMsgResponseOk : UInt32 := 0x10

/-- `IPC_MSG_RESPONSE_ERROR`. -/
def ipcMsgResponseError : UInt32 := 0x11

/-- `IPC_MSG_PING`. -/
def ipcMsgPing : UInt32 := 0xF0

/-- `IPC_MSG_PONG`. -/
def ipcMsgPong : UInt32 := 0xF1

/-- The error codes (`ipc_error_t`) but `IPC_ERR_OK`, which is the absence of an error. -/
inductive IpcError where
  | invalidVersion
  | invalidType
  | frameTooLarge
  | invalidPayload
  | timeout
  | connectionClosed
  | internal
  deriving DecidableEq, Repr

/-- The number of an error code. -/
def IpcError.code : IpcError → ℕ
  | invalidVersion => 1
  | invalidType => 2
  | frameTooLarge => 3
  | invalidPayload => 4
  | timeout => 5
  | connectionClosed => 6
  | internal => 99

/-- `ipc_strerror`. -/
def ipcStrerror : IpcError → List UInt8
  | .invalidVersion => ascii "Unsupported protocol version"
  | .invalidType => ascii "Unknown message type"
  | .frameTooLarge => ascii "Frame too large"
  | .invalidPayload => ascii "Invalid payload"
  | .timeout => ascii "Timeout"
  | .connectionClosed => ascii "Connection closed"
  | .internal => ascii "Internal error"

/-- A message in memory (`ipc_message_t`). `payload` is the buffer behind the pointer, `none` for
NULL; the two proofs say that `payload_len` bytes of it can be read and that it fits in memory. -/
@[ext] structure IpcMessage where
  /-- The type, a C enumeration: the numbers in use are below 256. -/
  type : UInt32
  /-- The payload buffer. -/
  payload : Option (List UInt8)
  /-- The length of the payload. -/
  payloadLen : UInt64
  /-- As many bytes as `payload_len` says are there. -/
  readable : payloadLen.toNat ≤ (payload.getD []).length
  /-- No object is larger than `PTRDIFF_MAX`. -/
  fits : (payload.getD []).length < 2 ^ 63

namespace IpcMessage

/-- The payload proper: the first `payload_len` bytes of the buffer. -/
def bytes (m : IpcMessage) : List UInt8 := (m.payload.getD []).take m.payloadLen.toNat

/-- What a message says: its type and its payload. -/
def content (m : IpcMessage) : UInt32 × List UInt8 := (m.type, m.bytes)

/-- What a frame carries of a message: the low byte of its type, and its payload. -/
def wire (m : IpcMessage) : UInt32 × List UInt8 := (m.type.toUInt8.toUInt32, m.bytes)

@[simp] theorem length_bytes (m : IpcMessage) : m.bytes.length = m.payloadLen.toNat := by
  rw [bytes, List.length_take, min_eq_left m.readable]

/-- For the types that fit in a byte, a frame carries all a message says. -/
theorem wire_eq_content {m : IpcMessage} (h : m.type.toNat < 256) : m.wire = m.content := by
  have htype : m.type.toUInt8.toUInt32 = m.type := by
    apply UInt32.toNat_inj.mp
    rw [UInt8.toNat_toUInt32, UInt32.toNat_toUInt8, Nat.mod_eq_of_lt h]
  rw [wire, content, htype]

/-- A message that owns a NUL-terminated copy of a payload; NULL for the empty payload. -/
def ofBytes (type : UInt32) (bytes : List UInt8) (h : bytes.length < 2 ^ 62) : IpcMessage where
  type := type
  payload := if bytes.length > 0 then some (bytes ++ [0]) else none
  payloadLen := UInt64.ofNat bytes.length
  readable := by
    rw [UInt64.toNat_ofNat', Nat.mod_eq_of_lt (by omega)]
    split <;> simp_all
  fits := by
    split
    · simp only [Option.getD_some, List.length_append, List.length_cons, List.length_nil]
      omega
    · simp

@[simp] theorem content_ofBytes (type : UInt32) (bytes : List UInt8) (h : bytes.length < 2 ^ 62) :
    (ofBytes type bytes h).content = (type, bytes) := by
  have hlen : (UInt64.ofNat bytes.length).toNat = bytes.length := by
    rw [UInt64.toNat_ofNat', Nat.mod_eq_of_lt (by omega)]
  simp only [content, IpcMessage.bytes, ofBytes, hlen]
  by_cases hpos : bytes.length > 0
  · rw [if_pos hpos, Option.getD_some, List.take_left]
  · obtain rfl : bytes = [] := List.length_eq_zero_iff.mp (by omega)
    rfl

/-- The buffer of such a message. -/
theorem payload_ofBytes (type : UInt32) (bytes : List UInt8) (h : bytes.length < 2 ^ 62) :
    (ofBytes type bytes h).payload =
      if (ofBytes type bytes h).bytes = [] then none else some ((ofBytes type bytes h).bytes ++ [0]) := by
  have hbytes : (ofBytes type bytes h).bytes = bytes := congrArg Prod.snd (content_ofBytes type bytes h)
  rw [hbytes, ofBytes]
  cases bytes <;> rfl

end IpcMessage

/-- `ipc_encode_message`: the frame written into a buffer of `frameSize` bytes, or `none` for -1. -/
def ipcEncodeMessage (msg : IpcMessage) (frameSize : UInt64) : Option (List UInt8) :=
  let totalSize : UInt64 := 6 + msg.payloadLen
  if totalSize > frameSize then none
  else if totalSize.toNat > ipcMaxFrameSize then none
  else some (beBytes totalSize.toUInt32.toNat ++ [ipcProtocolVersion, msg.type.toUInt8] ++ msg.bytes)

/-- `ipc_decode_message` on a frame of `frame.length` bytes. The allocation of the payload is taken to
succeed. -/
def ipcDecodeMessage (frame : List UInt8) : Except IpcError IpcMessage :=
  if frame.length < ipcHeaderSize then .error .invalidPayload
  else
    let length := beNat (frame.take 4)
    if hlen : length ≠ frame.length then .error .invalidPayload
    else if hmax : length > ipcMaxFrameSize then .error .frameTooLarge
    else if frame.getD 4 0 ≠ ipcProtocolVersion then .error .invalidVersion
    else .ok (.ofBytes (frame.getD 5 0).toUInt32 (frame.drop ipcHeaderSize) (by
      rw [ipcMaxFrameSize] at hmax
      rw [List.length_drop]
      omega))

/-- `ipc_create_error_response`; a `none` text stands for NULL. -/
def ipcCreateErrorResponse (err : IpcError) (errorMsg : Option (List UInt8)) :
    Except IpcError IpcMessage :=
  let errStr := errorMsg.getD (ipcStrerror err)
  let jsonSize := 128 + errStr.length
  let written := ascii "\x7b\"ok\":false,\"error\":\x7b\"code\":" ++ ascii (toString err.code) ++
    ascii ",\"message\":\"" ++ errStr ++ ascii "\"\x7d\x7d"
  if h : written.length < jsonSize ∧ written.length < 2 ^ 62 then
    .ok (.ofBytes ipcMsgResponseError written h.2)
  else .error .internal

/-- `ipc_encode_message` into a buffer as large as the largest frame. -/
def ipcFrame (msg : IpcMessage) : Option (List UInt8) :=
  ipcEncodeMessage msg (UInt64.ofNat ipcMaxFrameSize)

/-! ### Encoding and decoding -/

/-- The sizes that can be encoded, free of the arithmetic of `size_t`. -/
theorem ipcEncodeMessage_eq (msg : IpcMessage) (frameSize : UInt64) :
    ipcEncodeMessage msg frameSize =
      if ipcHeaderSize + msg.bytes.length ≤ frameSize.toNat ∧ ipcHeaderSize + msg.bytes.length ≤ ipcMaxFrameSize then
        some (beBytes (ipcHeaderSize + msg.bytes.length) ++ [ipcProtocolVersion, msg.type.toUInt8] ++ msg.bytes)
      else none := by
  have hbound : msg.payloadLen.toNat < 2 ^ 63 := lt_of_le_of_lt msg.readable msg.fits
  have htotal : (6 + msg.payloadLen).toNat = ipcHeaderSize + msg.payloadLen.toNat := by
    rw [UInt64.toNat_add]
    exact Nat.mod_eq_of_lt (by show 6 + msg.payloadLen.toNat < 2 ^ 64; omega)
  rw [IpcMessage.length_bytes, ipcEncodeMessage]
  by_cases hroom : ipcHeaderSize + msg.payloadLen.toNat ≤ frameSize.toNat
  · rw [if_neg (by rw [gt_iff_lt, UInt64.lt_iff_toNat_lt, htotal]; exact not_lt.mpr hroom), htotal]
    by_cases hmax : ipcHeaderSize + msg.payloadLen.toNat ≤ ipcMaxFrameSize
    · have h32 : (6 + msg.payloadLen).toUInt32.toNat = ipcHeaderSize + msg.payloadLen.toNat := by
        rw [UInt64.toNat_toUInt32, htotal]
        rw [ipcMaxFrameSize] at hmax
        exact Nat.mod_eq_of_lt (by omega)
      rw [if_neg (not_lt.mpr hmax), if_pos ⟨hroom, hmax⟩, h32]
    · rw [if_pos (not_le.mp hmax), if_neg fun h => hmax h.2]
  · rw [if_pos (by rw [gt_iff_lt, UInt64.lt_iff_toNat_lt, htotal]; exact not_le.mp hroom), if_neg fun h => hroom h.1]

/-- The same in the largest buffer. -/
theorem ipcFrame_eq (msg : IpcMessage) :
    ipcFrame msg =
      if ipcHeaderSize + msg.bytes.length ≤ ipcMaxFrameSize then
        some (beBytes (ipcHeaderSize + msg.bytes.length) ++ [ipcProtocolVersion, msg.type.toUInt8] ++ msg.bytes)
      else none := by
  have hmax : (UInt64.ofNat ipcMaxFrameSize).toNat = ipcMaxFrameSize := rfl
  simp only [ipcFrame, ipcEncodeMessage_eq, hmax, and_self]

variable {frameSize : UInt64} {frame : List UInt8} {m : IpcMessage}

/-- The size of the buffer has no influence on the frame, only on whether there is one. -/
theorem ipcFrame_of_encode {msg : IpcMessage} (h : ipcEncodeMessage msg frameSize = some frame) :
    ipcFrame msg = some frame := by
  rw [ipcEncodeMessage_eq] at h
  split at h
  · next hfits => rw [ipcFrame_eq, if_pos hfits.2, h]
  · cases h

/-- The outcome of decoding, in terms of the frame: which error, or which type and payload. -/
theorem ipcDecodeMessage_eq_ok {frame : List UInt8} (hsize : ipcHeaderSize ≤ frame.length)
    (hlen : beNat (frame.take 4) = frame.length) (hmax : frame.length ≤ ipcMaxFrameSize)
    (hver : frame.getD 4 0 = ipcProtocolVersion) :
    ∃ m, ipcDecodeMessage frame = .ok m ∧ m.content = ((frame.getD 5 0).toUInt32, frame.drop ipcHeaderSize) := by
  rw [ipcDecodeMessage, if_neg (by omega)]
  simp only [dif_neg (not_not.mpr hlen), dif_neg (show ¬ beNat (frame.take 4) > ipcMaxFrameSize by omega),
    if_neg (not_not.mpr hver)]
  exact ⟨_, rfl, IpcMessage.content_ofBytes _ _ _⟩

/-- A decoded payload is followed by a NUL; for an empty one there is no buffer. -/
theorem payload_of_decode (h : ipcDecodeMessage frame = .ok m) :
    m.payload = if m.bytes = [] then none else some (m.bytes ++ [0]) := by
  rw [ipcDecodeMessage] at h
  dsimp only at h
  split_ifs at h
  obtain rfl := Except.ok.inj h
  exact IpcMessage.payload_ofBytes _ _ _

/-- A frame that is too short or of another version does not decode. -/
theorem ipcDecodeMessage_eq_error (h : frame.length < ipcHeaderSize ∨ frame.getD 4 0 ≠ ipcProtocolVersion) :
    ∃ err, ipcDecodeMessage frame = .error err := by
  rw [ipcDecodeMessage]
  split
  · exact ⟨_, rfl⟩
  · rename_i hsize
    have hver : frame.getD 4 0 ≠ ipcProtocolVersion := h.resolve_left hsize
    simp only [if_pos hver]
    split
    · exact ⟨_, rfl⟩
    · split <;> exact ⟨_, rfl⟩

/-- What can be said of a frame that decodes, and of the message. -/
theorem of_ipcDecodeMessage (h : ipcDecodeMessage frame = .ok m) :
    ipcHeaderSize ≤ frame.length ∧ frame.length ≤ ipcMaxFrameSize ∧
      beNat (frame.take 4) = frame.length ∧ frame.getD 4 0 = ipcProtocolVersion ∧
      m.content = ((frame.getD 5 0).toUInt32, frame.drop ipcHeaderSize) := by
  rw [ipcDecodeMessage] at h
  dsimp only at h
  split_ifs at h with hsize hlen hmax hver
  obtain rfl := Except.ok.inj h
  rw [not_not] at hlen hver
  exact ⟨not_lt.mp hsize, by omega, hlen, hver, IpcMessage.content_ofBytes _ _ _⟩

/-! ### The codec -/

/-- A frame is its header and its payload. -/
theorem frame_eq (hsize : ipcHeaderSize ≤ frame.length) :
    frame = frame.take 4 ++ [frame.getD 4 0, frame.getD 5 0] ++ frame.drop ipcHeaderSize := by
  obtain ⟨head, rest, rfl, hhead⟩ : ∃ head rest, frame = head ++ rest ∧ head.length = ipcHeaderSize :=
    ⟨frame.take ipcHeaderSize, frame.drop ipcHeaderSize, (List.take_append_drop _ _).symm, List.length_take_of_le hsize⟩
  obtain ⟨first, last, rfl, hfirst⟩ : ∃ first last, head = first ++ last ∧ first.length = 4 :=
    ⟨head.take 4, head.drop 4, (List.take_append_drop _ _).symm, List.length_take_of_le (by rw [hhead]; decide)⟩
  obtain ⟨version, type, rfl⟩ : ∃ version type, last = [version, type] := by
    rw [List.length_append, hfirst, ipcHeaderSize] at hhead
    exact List.length_eq_two.mp (by omega)
  obtain ⟨a, b, c, d, rfl⟩ := List.length_eq_four.mp hfirst
  rfl

/-- A message in its frame is read back, whatever the size of the buffer it was written to. -/
theorem decode_encode {msg : IpcMessage} (htype : msg.type.toNat < 256)
    (hmax : ipcHeaderSize + msg.bytes.length ≤ ipcMaxFrameSize)
    (hroom : ipcHeaderSize + msg.bytes.length ≤ frameSize.toNat) :
    ∃ frame m, ipcEncodeMessage msg frameSize = some frame ∧ ipcDecodeMessage frame = .ok m ∧
      m.content = msg.content := by
  have hlen : (beBytes (ipcHeaderSize + msg.bytes.length) ++
      [ipcProtocolVersion, msg.type.toUInt8] ++ msg.bytes).length = ipcHeaderSize + msg.bytes.length := by
    simp [ipcHeaderSize]
    omega
  have hread : beNat (beBytes (ipcHeaderSize + msg.bytes.length)) = ipcHeaderSize + msg.bytes.length :=
    beNat_beBytes (by rw [ipcMaxFrameSize] at hmax; omega)
  obtain ⟨m, hm, hcontent⟩ := @ipcDecodeMessage_eq_ok (beBytes (ipcHeaderSize + msg.bytes.length) ++
      [ipcProtocolVersion, msg.type.toUInt8] ++ msg.bytes)
    (by rw [hlen]; exact Nat.le_add_right _ _) (by rw [hlen]; exact hread) (by rw [hlen]; exact hmax) rfl
  refine ⟨_, m, (ipcEncodeMessage_eq msg frameSize).trans (if_pos ⟨hroom, hmax⟩), hm, ?_⟩
  rw [hcontent]
  exact IpcMessage.wire_eq_content htype

/-- The frames that are accepted. -/
theorem ipcDecodeMessage_iff (frame : List UInt8) :
    (∃ m, ipcDecodeMessage frame = .ok m) ↔
      (ipcHeaderSize ≤ frame.length ∧ frame.length ≤ ipcMaxFrameSize) ∧
        frame.take 4 = beBytes frame.length ∧ frame.getD 4 0 = ipcProtocolVersion := by
  constructor
  · rintro ⟨m, hm⟩
    obtain ⟨hsize, hmax, hlen, hver, -⟩ := of_ipcDecodeMessage hm
    have hfour : (frame.take 4).length = 4 := List.length_take_of_le (le_trans (by decide) hsize)
    exact ⟨⟨hsize, hmax⟩, by rw [← hlen, beBytes_beNat hfour], hver⟩
  · rintro ⟨⟨hsize, hmax⟩, hlen, hver⟩
    have hread : beNat (frame.take 4) = frame.length := by
      rw [hlen, beNat_beBytes (by rw [ipcMaxFrameSize] at hmax; omega)]
    obtain ⟨m, hm, -⟩ := ipcDecodeMessage_eq_ok hsize hread hmax hver
    exact ⟨m, hm⟩

/-- A frame that was read is written again, whatever the size of the buffer. -/
theorem encode_decode (h : ipcDecodeMessage frame = .ok m) (hroom : frame.length ≤ frameSize.toNat) :
    ipcEncodeMessage m frameSize = some frame := by
  obtain ⟨hsize, hmax, hlen, hver, hcontent⟩ := of_ipcDecodeMessage h
  have htype : m.type = (frame.getD 5 0).toUInt32 := congrArg Prod.fst hcontent
  have hbytes : m.bytes = frame.drop ipcHeaderSize := congrArg Prod.snd hcontent
  have hfour : (frame.take 4).length = 4 := List.length_take_of_le (le_trans (by decide) hsize)
  have htotal : ipcHeaderSize + (frame.drop ipcHeaderSize).length = frame.length := by
    rw [List.length_drop]
    omega
  rw [ipcEncodeMessage_eq, hbytes, htotal, if_pos ⟨hroom, hmax⟩, htype, UInt8.toUInt8_toUInt32, ← hlen,
    beBytes_beNat hfour, ← hver, ← frame_eq hsize]

/-- **The frame codec is a bijection** between the messages with a one-byte type that fit a frame and the byte
strings of 6 bytes to 4 MiB that begin with their length and the version. -/
theorem ipc_frame_codec :
    (∀ (msg : IpcMessage) (frameSize : UInt64), msg.type.toNat < 256 →
      msg.bytes.length ≤ ipcMaxFrameSize - ipcHeaderSize →
      msg.bytes.length + ipcHeaderSize ≤ frameSize.toNat →
      ∃ frame m, ipcEncodeMessage msg frameSize = some frame ∧ ipcDecodeMessage frame = .ok m ∧
        m.content = msg.content) ∧
    (∀ frame : List UInt8, (∃ m, ipcDecodeMessage frame = .ok m) ↔
      (ipcHeaderSize ≤ frame.length ∧ frame.length ≤ ipcMaxFrameSize) ∧
        frame.take 4 = beBytes frame.length ∧ frame.getD 4 0 = 1) ∧
    (∀ (frame : List UInt8) (m : IpcMessage) (frameSize : UInt64), ipcDecodeMessage frame = .ok m →
      frame.length ≤ frameSize.toNat → ipcEncodeMessage m frameSize = some frame) := by
  refine ⟨?_, ipcDecodeMessage_iff, fun frame m frameSize h hroom => encode_decode h hroom⟩
  intro msg frameSize htype hmax hroom
  have hheader : ipcHeaderSize ≤ ipcMaxFrameSize := by decide
  exact decode_encode htype (by omega) (by omega)

/-- A ping in a buffer of its size, and back. -/
theorem ipc_frame_codec_ping :
    ∃ frame m, ipcEncodeMessage (.ofBytes ipcMsgPing [] (by decide)) 6 = some frame ∧
      ipcDecodeMessage frame = .ok m ∧ m.content = (ipcMsgPing, []) ∧
      ipcEncodeMessage m 6 = some frame := by
  obtain ⟨frame, m, hframe, hm, hcontent⟩ :=
    ipc_frame_codec.1 (.ofBytes ipcMsgPing [] (by decide)) 6 (by decide) (by decide) (by decide)
  have hlen : frame.length = 6 := by
    obtain rfl : frame = [0, 0, 0, 6, 1, 0xF0] := (Option.some.inj hframe).symm
    rfl
  exact ⟨frame, m, hframe, hm, hcontent, ipc_frame_codec.2.2 frame m 6 hm (by rw [hlen]; decide)⟩

/-! ### The sizes of a call

The messages above have their payload in memory, so that their lengths are far from the end of `size_t`. The function
takes any length: `payload_len` is a field, and with a NULL payload nothing has to stand behind it. -/

/-- What a call of `ipc_encode_message` returns, and how many bytes it hands to `memcpy`. -/
structure EncodeSizes where
  /-- The `ssize_t` returned. -/
  returned : ℤ
  copied : ℕ
  deriving DecidableEq, Repr

/-- `ipc_encode_message` in terms of its sizes, for a payload pointer that is NULL or not. -/
def ipcEncodeSizes (hasPayload : Bool) (payloadLen frameSize : UInt64) : EncodeSizes :=
  let totalSize : UInt64 := 6 + payloadLen
  if totalSize > frameSize then ⟨-1, 0⟩
  else if totalSize.toNat > ipcMaxFrameSize then ⟨-1, 0⟩
  else ⟨totalSize.toInt64.toInt, if payloadLen > 0 && hasPayload then payloadLen.toNat else 0⟩

/-- A size is returned only for a frame that fits the buffer and is no larger than the largest, and it is the size of
this frame; the payload copied stays within the buffer. -/
def SizesGuarded (payloadLen frameSize : UInt64) (sizes : EncodeSizes) : Prop :=
  (0 ≤ sizes.returned →
    ipcHeaderSize + payloadLen.toNat ≤ frameSize.toNat ∧ ipcHeaderSize + payloadLen.toNat ≤ ipcMaxFrameSize ∧
      sizes.returned = (ipcHeaderSize + payloadLen.toNat : ℕ)) ∧
    sizes.copied ≤ frameSize.toNat - ipcHeaderSize

/-- A size that passes both checks is small, and its own conversion to `ssize_t`. -/
theorem toInt_toInt64_of_le {n : UInt64} (h : n.toNat ≤ ipcMaxFrameSize) : n.toInt64.toInt = n.toNat := by
  rw [ipcMaxFrameSize] at h
  have hbits : n.toInt64.toInt = n.toBitVec.toInt := rfl
  rw [hbits, BitVec.toInt_eq_toNat_of_lt (by rw [UInt64.toNat_toBitVec]; omega), UInt64.toNat_toBitVec]

/-- The sizes in the naturals: what wraps around is the total. -/
theorem ipcEncodeSizes_eq (hasPayload : Bool) (payloadLen frameSize : UInt64) :
    ipcEncodeSizes hasPayload payloadLen frameSize =
      if (ipcHeaderSize + payloadLen.toNat) % 2 ^ 64 ≤ frameSize.toNat ∧
          (ipcHeaderSize + payloadLen.toNat) % 2 ^ 64 ≤ ipcMaxFrameSize then
        ⟨((ipcHeaderSize + payloadLen.toNat) % 2 ^ 64 : ℕ), if hasPayload then payloadLen.toNat else 0⟩
      else ⟨-1, 0⟩ := by
  have htotal : (6 + payloadLen).toNat = (ipcHeaderSize + payloadLen.toNat) % 2 ^ 64 := UInt64.toNat_add 6 payloadLen
  have hcopied : (if payloadLen > 0 && hasPayload then payloadLen.toNat else 0)
      = if hasPayload then payloadLen.toNat else 0 := by
    by_cases hpos : payloadLen > 0
    · rw [decide_eq_true hpos, Bool.true_and]
    · have hzero : payloadLen.toNat = 0 := by
        rw [gt_iff_lt, UInt64.lt_iff_toNat_lt] at hpos
        exact Nat.le_zero.mp (not_lt.mp hpos)
      rw [hzero, ite_self, ite_self]
  rw [ipcEncodeSizes, ← htotal]
  by_cases hroom : (6 + payloadLen).toNat ≤ frameSize.toNat
  · have hword : ¬ 6 + payloadLen > frameSize := UInt64.not_lt.mpr (UInt64.le_iff_toNat_le.mpr hroom)
    by_cases hmax : (6 + payloadLen).toNat ≤ ipcMaxFrameSize
    · simp only [if_neg hword, if_neg (not_lt.mpr hmax), if_pos (And.intro hroom hmax), toInt_toInt64_of_le hmax,
        hcopied]
    · simp only [if_neg hword, if_pos (not_le.mp hmax), if_neg fun h : _ ∧ _ => hmax h.2]
  · have hword : 6 + payloadLen > frameSize := UInt64.lt_iff_toNat_lt.mpr (not_le.mp hroom)
    simp only [if_pos hword, if_neg fun h : _ ∧ _ => hroom h.1]

/-- For a message in memory, the sizes are those of its frame and of its payload. -/
theorem ipcEncodeSizes_of_message (msg : IpcMessage) (frameSize : UInt64) :
    ipcEncodeSizes msg.payload.isSome msg.payloadLen frameSize =
      ((ipcEncodeMessage msg frameSize).map fun frame => ⟨frame.length, msg.bytes.length⟩).getD ⟨-1, 0⟩ := by
  have hbound : msg.payloadLen.toNat < 2 ^ 63 := lt_of_le_of_lt msg.readable msg.fits
  have hmod : (ipcHeaderSize + msg.payloadLen.toNat) % 2 ^ 64 = ipcHeaderSize + msg.payloadLen.toNat :=
    Nat.mod_eq_of_lt (by rw [ipcHeaderSize]; omega)
  -- Without a buffer the payload is empty, and nothing is copied of it.
  have hcopied : (if msg.payload.isSome then msg.payloadLen.toNat else 0) = msg.payloadLen.toNat := by
    have hreadable := msg.readable
    cases hpayload : msg.payload with
    | none =>
      rw [hpayload] at hreadable
      exact (Nat.le_zero.mp hreadable).symm
    | some buffer => rfl
  rw [ipcEncodeSizes_eq, ipcEncodeMessage_eq, hmod, hcopied, IpcMessage.length_bytes]
  split
  · have hlen : (beBytes (ipcHeaderSize + msg.payloadLen.toNat) ++ [ipcProtocolVersion, msg.type.toUInt8] ++
        msg.bytes).length = ipcHeaderSize + msg.payloadLen.toNat := by
      rw [List.length_append, IpcMessage.length_bytes]
      rfl
    rw [Option.map_some, Option.getD_some, hlen]
  · rfl

/-- **The guard on the sizes** holds for exactly those lengths whose sum with the header does not wrap around to a
size the buffer has room for. -/
theorem encode_sizes_iff (hasPayload : Bool) (payloadLen frameSize : UInt64) :
    SizesGuarded payloadLen frameSize (ipcEncodeSizes hasPayload payloadLen frameSize) ↔
      (2 ^ 64 ≤ ipcHeaderSize + payloadLen.toNat →
        frameSize.toNat < ipcHeaderSize + payloadLen.toNat - 2 ^ 64) := by
  have hlen : payloadLen.toNat < 2 ^ 64 := payloadLen.toNat_lt
  have hframe : frameSize.toNat < 2 ^ 64 := frameSize.toNat_lt
  have hmod : (ipcHeaderSize + payloadLen.toNat) % 2 ^ 64 =
      if 2 ^ 64 ≤ ipcHeaderSize + payloadLen.toNat then ipcHeaderSize + payloadLen.toNat - 2 ^ 64
      else ipcHeaderSize + payloadLen.toNat := by
    rw [ipcHeaderSize]
    split <;> omega
  have hcopied : (if hasPayload then payloadLen.toNat else 0) ≤ payloadLen.toNat := by
    split <;> omega
  rw [ipcEncodeSizes_eq, hmod, SizesGuarded]
  by_cases hwrap : 2 ^ 64 ≤ ipcHeaderSize + payloadLen.toNat
  · rw [if_pos hwrap]
    by_cases hroom : ipcHeaderSize + payloadLen.toNat - 2 ^ 64 ≤ frameSize.toNat
    · -- A size is returned, and no buffer has room for the frame.
      have hsmall : ipcHeaderSize ≤ ipcMaxFrameSize := by decide
      have hmax : ipcHeaderSize + payloadLen.toNat - 2 ^ 64 ≤ ipcMaxFrameSize := by omega
      rw [if_pos ⟨hroom, hmax⟩]
      constructor
      · rintro ⟨hreturned, -⟩
        obtain ⟨hfits, -⟩ := hreturned (Int.natCast_nonneg _)
        exact absurd (lt_of_lt_of_le hframe hwrap) (not_lt.mpr hfits)
      · intro h
        exact absurd (h hwrap) (not_lt.mpr hroom)
    · rw [if_neg fun h => hroom h.1]
      exact ⟨fun _ _ => not_le.mp hroom, fun _ => ⟨fun h => absurd h (by decide), Nat.zero_le _⟩⟩
  · rw [if_neg hwrap]
    refine ⟨fun _ h => absurd h hwrap, fun _ => ?_⟩
    split
    · next hfits => exact ⟨fun _ => ⟨hfits.1, hfits.2, rfl⟩, hcopied.trans (Nat.le_sub_of_add_le' hfits.1)⟩
    · exact ⟨fun h => absurd h (by decide), Nat.zero_le _⟩

/-- A length six below the end of `size_t`: the size 0 is returned, and all of that length is to be copied into 64
bytes. -/
theorem encode_sizes_wrapped :
    ipcEncodeSizes true (UInt64.ofNat (2 ^ 64 - 6)) 64 = ⟨0, 2 ^ 64 - 6⟩ ∧
      ¬ SizesGuarded (UInt64.ofNat (2 ^ 64 - 6)) 64 (ipcEncodeSizes true (UInt64.ofNat (2 ^ 64 - 6)) 64) := by
  have hsizes : ipcEncodeSizes true (UInt64.ofNat (2 ^ 64 - 6)) 64 = ⟨0, 2 ^ 64 - 6⟩ := by decide
  refine ⟨hsizes, fun h => ?_⟩
  rw [hsizes] at h
  exact absurd h.2 (by decide)

end CGateway
