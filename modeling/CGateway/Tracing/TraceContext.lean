import CGateway.Lib.Printf
import CGateway.Lib.Scanf

/-! # Trace contexts as text

`trace_context.c` passes a trace on between processes: two halves of a trace id, a span id and the decision to sample,
three numbers of 16 hexadecimal digits and a last digit between dashes.

* `traceContextToString`, `traceContextFromString` — the two directions, with the buffer of the first;
* `cstr_toString` — the text that is left in the buffer;
* `trace_context_round_trip` — reading it gives the context back. -/

namespace CGateway

open Bytes CString Hex Printf Scanf

/-- `trace_context_t`. -/
structure TraceContext where
  traceIdHigh : UInt64
  traceIdLow : UInt64
  spanId : UInt64
  sampled : UInt8
  deriving DecidableEq

/-- `"%016lx-%016lx-%016lx-%d"`. -/
def TraceContext.text (ctx : TraceContext) : List UInt8 :=
  digits 16 ctx.traceIdHigh.toNat ++ 45 :: (digits 16 ctx.traceIdLow.toNat ++ 45 ::
    (digits 16 ctx.spanId.toNat ++ 45 :: decimalNat ctx.sampled.toNat))

/-- `trace_context_to_string`: its result and the buffer. -/
def traceContextToString (ctx : TraceContext) (mem : Memory) (size : UInt64) : ℤ × Memory :=
  -- 72 bytes are asked for, although the text and its NUL have at most 55
  if size < 72 then (-1, mem)
  else
    (if 0 < returned ctx.text ∧ UInt64.ofInt (returned ctx.text) < size then 0 else -1,
      snprintf mem 0 size.toNat ctx.text)

/-- `"%lx-%lx-%lx-%d"`. -/
def traceContextFormat : List Directive := [.hex none, .byte 45, .hex none, .byte 45, .hex none, .byte 45, .decimal]

/-- `trace_context_from_string`: its result and the context, which a failure leaves alone. -/
def traceContextFromString (bare : Bool) (str : List UInt8) (ctx : TraceContext) : ℤ × TraceContext :=
  match sscanf bare traceContextFormat str with
  | [.hex high, .hex low, .hex span, .decimal sampled] => (0, ⟨high, low, span, if sampled = 0 then 0 else 1⟩)
  | _ => (-1, ctx)

section RoundTrip

variable {ctx : TraceContext}

/-- The decision to sample as a digit. -/
theorem decimalNat_sampled (h : ctx.sampled = 0 ∨ ctx.sampled = 1) :
    ∃ b, decimalNat ctx.sampled.toNat = [b] ∧ b ≠ 0 := by
  rcases h with h | h <;> rw [h]
  · exact ⟨48, by decide, by decide⟩
  · exact ⟨49, by decide, by decide⟩

/-- The text has 52 bytes, none of them NUL. -/
theorem TraceContext.text_spec (h : ctx.sampled = 0 ∨ ctx.sampled = 1) :
    ctx.text.length = 52 ∧ (0 : UInt8) ∉ ctx.text := by
  obtain ⟨b, hdigit, hb⟩ := decimalNat_sampled h
  have hfield : ∀ n, (0 : UInt8) ∉ digits 16 n := fun n hmem => absurd (isHexDigit_of_mem_digits hmem) (by decide)
  rw [TraceContext.text, hdigit]
  refine ⟨?_, ?_⟩
  · simp only [List.length_append, List.length_cons, length_digits, List.length_nil]
  · simp only [List.mem_append, List.mem_cons, List.not_mem_nil, or_false, not_or]
    exact ⟨hfield _, by decide, hfield _, by decide, hfield _, by decide, hb.symm⟩

/-- The result, and the text that is left in the buffer. -/
theorem cstr_toString (h : ctx.sampled = 0 ∨ ctx.sampled = 1) (mem : Memory) {size : UInt64} (hsize : 72 ≤ size) :
    (traceContextToString ctx mem size).1 = 0 ∧
      cstr (load (traceContextToString ctx mem size).2 0 size.toNat) = ctx.text := by
  obtain ⟨hlength, hnul⟩ := TraceContext.text_spec h
  have hroom : 72 ≤ size.toNat := UInt64.le_iff_toNat_le.mp hsize
  have hwritten : returned ctx.text = 52 := by
    rw [returned, hlength]
    rfl
  obtain ⟨htext, hclosed⟩ := @load_snprintf mem [] size.toNat ctx.text rfl (by omega)
  rw [List.nil_append] at htext hclosed
  have hsmall : ¬size < 72 := by
    rw [UInt64.lt_iff_toNat_lt]
    exact Nat.not_lt.mpr hroom
  have hfits : UInt64.ofInt 52 < size := by
    rw [UInt64.lt_iff_toNat_lt]
    exact lt_of_lt_of_le (by decide) hroom
  rw [traceContextToString, if_neg hsmall, hwritten, if_pos ⟨by decide, hfits⟩]
  exact ⟨rfl, cstr_load htext hclosed hnul (by omega)⟩

/-- A 64-bit number in 16 digits is read back. -/
theorem unsignedLong_number_digits (n : UInt64) : unsignedLong false (number (digits 16 n.toNat)) = n := by
  have hlt := n.toNat_lt
  rw [number_digits (lt_of_lt_of_le hlt (by decide)), unsignedLong, if_neg (Nat.not_le.mpr hlt)]
  exact UInt64.ofNat_toNat

/-- The fields of the text. -/
theorem sscanf_traceContextText (bare : Bool) (h : ctx.sampled = 0 ∨ ctx.sampled = 1) :
    sscanf bare traceContextFormat ctx.text =
      [.hex ctx.traceIdHigh, .hex ctx.traceIdLow, .hex ctx.spanId, .decimal ctx.sampled.toNat] := by
  have hfield : ∀ (n : UInt64) (format : List Directive) (rest : List UInt8),
      sscanf bare (.hex none :: .byte 45 :: format) (digits 16 n.toNat ++ 45 :: rest) =
        .hex n :: sscanf bare format rest := by
    intro n format rest
    have hsome : digits 16 n.toNat ≠ [] := List.ne_nil_of_length_pos (by rw [length_digits]; decide)
    rw [sscanf_hex_byte hsome (fun b hb => isHexDigit_of_mem_digits hb) (by decide), unsignedLong_number_digits]
  have hlast : scanDecimal (decimalNat ctx.sampled.toNat) = some ((ctx.sampled.toNat : ℤ), []) := by
    rcases h with h | h <;> rw [h] <;> decide
  rw [traceContextFormat, TraceContext.text, hfield, hfield, hfield, sscanf, hlast]
  rfl

end RoundTrip

/-- **The round trip of a context.** For all ids, with the decision to sample as 0 or 1 and a buffer of at least 72
bytes, writing succeeds, and reading what it left in the buffer gives the same context. -/
theorem trace_context_round_trip (bare : Bool) (ctx : TraceContext) (hsampled : ctx.sampled = 0 ∨ ctx.sampled = 1)
    (mem : Memory) (size : UInt64) (hsize : 72 ≤ size) (old : TraceContext) :
    (traceContextToString ctx mem size).1 = 0 ∧
      traceContextFromString bare (cstr (load (traceContextToString ctx mem size).2 0 size.toNat)) old = (0, ctx) := by
  obtain ⟨hresult, htext⟩ := cstr_toString hsampled mem hsize
  refine ⟨hresult, ?_⟩
  rw [htext, traceContextFromString, sscanf_traceContextText bare hsampled]
  obtain ⟨high, low, span, sampled⟩ := ctx
  rcases hsampled with h | h
  · obtain rfl : sampled = 0 := h
    rfl
  · obtain rfl : sampled = 1 := h
    rfl

/-- The largest ids, sampled. -/
theorem trace_context_round_trip_max :
    let ctx : TraceContext := ⟨0xffffffffffffffff, 0xffffffffffffffff, 0xffffffffffffffff, 1⟩
    traceContextFromString false (cstr (load (traceContextToString ctx (fun _ => 7) 72).2 0 72)) ⟨0, 0, 0, 0⟩ =
      (0, ctx) :=
  (trace_context_round_trip false ⟨0xffffffffffffffff, 0xffffffffffffffff, 0xffffffffffffffff, 1⟩ (.inr rfl)
    (fun _ => 7) 72 (by decide) ⟨0, 0, 0, 0⟩).2

end CGateway
