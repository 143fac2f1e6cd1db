import CGateway.Ipc.Protocol
import CGateway.Lib.StreamParser

/-! # The stream of frames, as one text

What a stream of IPC bytes means, said once for the whole stream: a reference parser in the sense of
`StreamParser`. Once a header is there its length decides: a length over 4 MiB rejects the stream; once
the frame is there, a length below the header's or a foreign version rejects it, and otherwise the frame
is a message.

* `ipcReference` — the parser;
* `parse_encoded` — the frames written by `ipc_encode_message` parse to their messages. -/

namespace CGateway

open Bytes StreamParser

/-- The decision on the bytes at hand. -/
def ipcReferenceStep (xs : List UInt8) : Step UInt8 (UInt32 × List UInt8) :=
  if xs.length < ipcHeaderSize then .wait
  else
    let length := beNat (xs.take 4)
    if length > ipcMaxFrameSize then .reject
    else if xs.length < length then .wait
    else if length < ipcHeaderSize ∨ xs.getD 4 0 ≠ ipcProtocolVersion then .reject
    else .deliver ((xs.getD 5 0).toUInt32, (xs.take length).drop ipcHeaderSize) (xs.drop length)

section Step

variable {xs : List UInt8}

/-- When the reference rejects. -/
theorem ipcReferenceStep_eq_reject (h : ipcReferenceStep xs = .reject) :
    ipcHeaderSize ≤ xs.length ∧ (beNat (xs.take 4) > ipcMaxFrameSize ∨
      beNat (xs.take 4) ≤ ipcMaxFrameSize ∧ beNat (xs.take 4) ≤ xs.length ∧
        (beNat (xs.take 4) < ipcHeaderSize ∨ xs.getD 4 0 ≠ ipcProtocolVersion)) := by
  rw [ipcReferenceStep] at h
  split at h
  · cases h
  · rename_i hsize
    refine ⟨not_lt.mp hsize, ?_⟩
    simp only at h
    split at h
    · exact .inl ‹_›
    · split at h
      · cases h
      · split at h
        · exact .inr ⟨not_lt.mp ‹_›, not_lt.mp ‹_›, ‹_›⟩
        · cases h

/-- When and what the reference delivers. -/
theorem ipcReferenceStep_eq_deliver {item : UInt32 × List UInt8} {rest : List UInt8}
    (h : ipcReferenceStep xs = .deliver item rest) :
    ipcHeaderSize ≤ beNat (xs.take 4) ∧ beNat (xs.take 4) ≤ ipcMaxFrameSize ∧
      beNat (xs.take 4) ≤ xs.length ∧ xs.getD 4 0 = ipcProtocolVersion ∧
      item = ((xs.getD 5 0).toUInt32, (xs.take (beNat (xs.take 4))).drop ipcHeaderSize) ∧
      rest = xs.drop (beNat (xs.take 4)) := by
  rw [ipcReferenceStep] at h
  split at h
  · cases h
  · simp only at h
    split at h
    · cases h
    · split at h
      · cases h
      · split at h
        · cases h
        · rename_i hmax hlen hbad
          rw [not_or, not_lt, not_not] at hbad
          obtain ⟨rfl, rfl⟩ := Step.deliver.inj h
          exact ⟨hbad.1, not_lt.mp hmax, not_lt.mp hlen, hbad.2, rfl, rfl⟩

/-- Rejection from the facts behind it. -/
theorem ipcReferenceStep_reject (hsize : ipcHeaderSize ≤ xs.length)
    (h : beNat (xs.take 4) > ipcMaxFrameSize ∨
      beNat (xs.take 4) ≤ ipcMaxFrameSize ∧ beNat (xs.take 4) ≤ xs.length ∧
        (beNat (xs.take 4) < ipcHeaderSize ∨ xs.getD 4 0 ≠ ipcProtocolVersion)) :
    ipcReferenceStep xs = .reject := by
  rw [ipcReferenceStep, if_neg (not_lt.mpr hsize)]
  obtain hmax | ⟨hmax, hlen, hbad⟩ := h
  · exact if_pos hmax
  · show (if beNat (xs.take 4) > ipcMaxFrameSize then _ else _) = _
    rw [if_neg (not_lt.mpr hmax), if_neg (not_lt.mpr hlen), if_pos hbad]

/-- Delivery from the facts behind it. -/
theorem ipcReferenceStep_deliver (hsize : ipcHeaderSize ≤ beNat (xs.take 4))
    (hmax : beNat (xs.take 4) ≤ ipcMaxFrameSize) (hlen : beNat (xs.take 4) ≤ xs.length)
    (hver : xs.getD 4 0 = ipcProtocolVersion) :
    ipcReferenceStep xs =
      .deliver ((xs.getD 5 0).toUInt32, (xs.take (beNat (xs.take 4))).drop ipcHeaderSize)
        (xs.drop (beNat (xs.take 4))) := by
  rw [ipcReferenceStep, if_neg (by omega)]
  show (if beNat (xs.take 4) > ipcMaxFrameSize then _ else _) = _
  rw [if_neg (not_lt.mpr hmax), if_neg (not_lt.mpr hlen), if_neg (not_or.mpr ⟨not_lt.mpr hsize, not_not.mpr hver⟩)]

/-- More bytes behind a header do not change what is read from it. -/
theorem header_append (hsize : ipcHeaderSize ≤ xs.length) (ys : List UInt8) :
    (xs ++ ys).take 4 = xs.take 4 ∧ (xs ++ ys).getD 4 0 = xs.getD 4 0 ∧ (xs ++ ys).getD 5 0 = xs.getD 5 0 := by
  rw [ipcHeaderSize] at hsize
  exact ⟨List.take_append_of_le_length (by omega), List.getD_append _ _ _ _ (by omega),
    List.getD_append _ _ _ _ (by omega)⟩

/-- A frame is at least a header long. -/
theorem ipcReferenceStep_shorter {item : UInt32 × List UInt8} {rest : List UInt8}
    (h : ipcReferenceStep xs = .deliver item rest) : rest.length < xs.length := by
  obtain ⟨hsize, -, hlen, -, -, rfl⟩ := ipcReferenceStep_eq_deliver h
  rw [ipcHeaderSize] at hsize
  rw [List.length_drop]
  omega

/-- A frame stays the same when more bytes arrive. -/
theorem ipcReferenceStep_deliver_append {item : UInt32 × List UInt8} {rest : List UInt8} (ys : List UInt8)
    (h : ipcReferenceStep xs = .deliver item rest) : ipcReferenceStep (xs ++ ys) = .deliver item (rest ++ ys) := by
  obtain ⟨hsize, hmax, hlen, hver, rfl, rfl⟩ := ipcReferenceStep_eq_deliver h
  obtain ⟨htake, h4, h5⟩ := header_append (hsize.trans hlen) ys
  have hlen' : beNat ((xs ++ ys).take 4) ≤ (xs ++ ys).length := by
    rw [htake, List.length_append]
    omega
  rw [ipcReferenceStep_deliver (htake ▸ hsize) (htake ▸ hmax) hlen' (h4 ▸ hver), htake, h5,
    List.take_append_of_le_length hlen, List.drop_append_of_le_length hlen]

/-- A rejected stream stays rejected. -/
theorem ipcReferenceStep_reject_append (ys : List UInt8) (h : ipcReferenceStep xs = .reject) :
    ipcReferenceStep (xs ++ ys) = .reject := by
  obtain ⟨hsize, hbad⟩ := ipcReferenceStep_eq_reject h
  obtain ⟨htake, h4, -⟩ := header_append hsize ys
  refine ipcReferenceStep_reject (by rw [List.length_append]; omega) ?_
  rw [htake, h4, List.length_append]
  obtain hmax | ⟨hmax, hlen, hver⟩ := hbad
  · exact .inl hmax
  · exact .inr ⟨hmax, by omega, hver⟩

end Step

/-- **The reference parser** of an IPC stream. -/
def ipcReference : Parser UInt8 (UInt32 × List UInt8) where
  step := ipcReferenceStep
  deliver_shorter := @ipcReferenceStep_shorter
  deliver_stable := @ipcReferenceStep_deliver_append
  reject_stable := @ipcReferenceStep_reject_append

/-! ### Encoded frames -/

/-- A frame written by `ipc_encode_message` is delivered as what it carries of its message. -/
theorem ipcReferenceStep_encoded {m : IpcMessage} {frame : List UInt8}
    (h : ipcFrame m = some frame) (rest : List UInt8) : ipcReferenceStep (frame ++ rest) = .deliver m.wire rest := by
  rw [ipcFrame_eq] at h
  split at h
  · rename_i hfits
    obtain rfl := Option.some.inj h
    have hn : beNat (beBytes (ipcHeaderSize + m.bytes.length)) = ipcHeaderSize + m.bytes.length :=
      beNat_beBytes (by rw [ipcMaxFrameSize] at hfits; omega)
    generalize hL : ipcHeaderSize + m.bytes.length = L at hn hfits
    have htake : (beBytes L ++ [ipcProtocolVersion, m.type.toUInt8] ++ m.bytes ++ rest).take 4 = beBytes L := rfl
    have hlength : (beBytes L ++ [ipcProtocolVersion, m.type.toUInt8] ++ m.bytes).length = L := by
      rw [← hL]
      simp only [List.length_append, length_beBytes, List.length_cons, List.length_nil, ipcHeaderSize]
    rw [ipcReferenceStep_deliver, htake, hn]
    · rw [List.take_left' hlength, List.drop_left' hlength]
      rfl
    · rw [htake, hn]
      omega
    · rw [htake, hn]
      exact hfits
    · rw [htake, hn, List.length_append, hlength]
      omega
    · rfl
  · cases h

/-- **Encoded frames parse to their messages.** A concatenation of frames written by
`ipc_encode_message` is delivered message by message, with nothing left over. -/
theorem parse_encoded {ms : List IpcMessage} {frames : List (List UInt8)}
    (h : List.Forall₂ (fun m frame => ∃ size, ipcEncodeMessage m size = some frame) ms frames) :
    parse ipcReference frames.flatten = ⟨ms.map IpcMessage.wire, .waiting []⟩ := by
  induction h with
  | nil => exact parse_of_wait rfl
  | cons hframe _ ih =>
    obtain ⟨size, hsize⟩ := hframe
    rw [List.flatten_cons, parse_of_deliver (ipcReferenceStep_encoded (ipcFrame_of_encode hsize) _), ih]
    rfl

end CGateway
