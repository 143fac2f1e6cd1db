import Mathlib.Data.UInt
import CGateway.Lib.CString

/-! # Formatted writes into a buffer

`snprintf` writes a text at an offset of a buffer, cuts it to the room that is left and closes it with a NUL. C code
that builds a text from many such writes compares what each of them returns with the room it had.

* `Printf.returned`, `Printf.snprintf` — one write;
* `Printf.writeAll` — texts written one behind the other, each guarded, the sizes being `size_t`;
* `Printf.cstr_load` — the C string that a closed text leaves in a buffer;
* `Printf.writeAll_snd`, `Printf.load_writeAll` — they are all written, or one of them was cut;
* `Printf.writeAll_outside` — nothing behind the buffer is touched. -/

namespace Printf

open Bytes CString

/-- What `snprintf` returns: the length of the whole text, and `-1` if that is no `int`. -/
def returned (text : List UInt8) : ℤ := if text.length < 2 ^ 31 then text.length else -1

/-- `snprintf` at an offset, with room for `size` bytes. -/
def snprintf (mem : Memory) (off size : ℕ) (text : List UInt8) : Memory :=
  if size = 0 then mem else store mem off (text.take (size - 1) ++ [0])

/-- Texts written one behind the other from an offset on, each with what is left of the buffer; the offset behind
the last one, if none was cut. -/
def writeAll (bufferSize : UInt64) : List (List UInt8) → Memory → UInt64 → Memory × Option UInt64
  | [], mem, offset => (mem, some offset)
  | text :: texts, mem, offset =>
      let mem' := snprintf mem offset.toNat (bufferSize - offset).toNat text
      -- what was cut is in the buffer all the same
      if returned text < 0 ∨ bufferSize - offset ≤ UInt64.ofInt (returned text) then (mem', none)
      else writeAll bufferSize texts mem' (offset + UInt64.ofInt (returned text))

section Sizes

variable {bufferSize : UInt64} {text written : List UInt8}

/-- The size of a text as a `size_t`. -/
theorem ofInt_returned (h : text.length < 2 ^ 31) : UInt64.ofInt (returned text) = UInt64.ofNat text.length := by
  rw [returned, if_pos h, UInt64.ofInt]
  congr 1
  omega

/-- A number of bytes below the size of the buffer is a `size_t`. -/
theorem toNat_offset (h : written.length < bufferSize.toNat) :
    (UInt64.ofNat written.length).toNat = written.length := by
  have hsize := bufferSize.toNat_lt
  exact UInt64.toNat_ofNat_of_lt' (lt_trans h hsize)

/-- What is left of the buffer. -/
theorem toNat_room (h : written.length < bufferSize.toNat) :
    (bufferSize - UInt64.ofNat written.length).toNat = bufferSize.toNat - written.length := by
  have hoffset := toNat_offset h
  rw [UInt64.toNat_sub_of_le _ _ (UInt64.le_iff_toNat_le.mpr (by omega)), hoffset]

/-- **The guard** of a write lets a text pass just when it fits with its NUL. -/
theorem guard_iff (h : written.length < bufferSize.toNat) (htext : text.length < 2 ^ 31) :
    (returned text < 0 ∨ bufferSize - UInt64.ofNat written.length ≤ UInt64.ofInt (returned text)) ↔
      bufferSize.toNat ≤ (written ++ text).length := by
  have hpos : ¬returned text < 0 := by
    rw [returned, if_pos htext]
    omega
  rw [or_iff_right hpos, UInt64.le_iff_toNat_le, toNat_room h, ofInt_returned htext,
    UInt64.toNat_ofNat_of_lt' (lt_trans htext (by decide)), List.length_append]
  omega

/-- The offset behind a text. -/
theorem offset_append (htext : text.length < 2 ^ 31) :
    UInt64.ofNat written.length + UInt64.ofInt (returned text) = UInt64.ofNat (written ++ text).length := by
  rw [ofInt_returned htext, List.length_append, UInt64.ofNat_add]

end Sizes

section Writes

variable {bufferSize : UInt64} {mem : Memory} {written : List UInt8}

/-- A text that fits is written whole behind what is there, and closed. -/
theorem load_snprintf {size : ℕ} {text : List UInt8} (h : load mem 0 written.length = written)
    (hfits : text.length < size) :
    load (snprintf mem written.length size text) 0 (written ++ text).length = written ++ text ∧
      snprintf mem written.length size text (written ++ text).length = 0 := by
  rw [snprintf, if_neg (by omega), List.take_of_length_le (by omega)]
  have hload := load_store_append mem written.length (text ++ [0])
  rw [h, ← List.append_assoc] at hload
  constructor
  · have hle : (written ++ text).length ≤ written.length + (text ++ [0]).length := by simp
    rw [← take_load _ 0 hle, hload, List.take_left' rfl]
  · rw [store, if_pos (by simp), List.length_append, Nat.add_sub_cancel_left]
    simp

/-- A text with the NUL behind it. -/
theorem load_closed {text : List UInt8} (htext : load mem 0 text.length = text) (hnul : mem text.length = 0) :
    load mem 0 (text.length + 1) = text ++ [0] := by
  have hlast : load mem text.length 1 = [0] := congrArg (fun b => [b]) hnul
  rw [load_add, Nat.zero_add, hlast, htext]

/-- A text that is closed in a buffer is the C string in it. -/
theorem cstr_load {text : List UInt8} (htext : load mem 0 text.length = text) (hnul : mem text.length = 0)
    (hfree : (0 : UInt8) ∉ text) {size : ℕ} (hsize : text.length < size) : cstr (load mem 0 size) = text := by
  obtain ⟨k, rfl⟩ : ∃ k, size = text.length + 1 + k := ⟨size - (text.length + 1), by omega⟩
  rw [load_add, load_closed htext hnul, List.append_assoc]
  exact takeWhile_append_sep hfree

/-- Writing does not reach behind the room it is given. -/
theorem snprintf_outside (mem : Memory) {off size : ℕ} (text : List UInt8) {i : ℕ} (hi : off + size ≤ i) :
    snprintf mem off size text i = mem i := by
  rw [snprintf]
  split
  · rfl
  · have hlength : (text.take (size - 1) ++ [0]).length ≤ size := by
      rw [List.length_append, List.length_take, List.length_singleton]
      omega
    rw [store, if_neg (by omega)]

/-- **All or nothing.** The writes go through just when the whole text fits with a NUL behind it. -/
theorem writeAll_snd (hroom : written.length < bufferSize.toNat) (texts : List (List UInt8))
    (htexts : ∀ text ∈ texts, text.length < 2 ^ 31) (mem : Memory) :
    (writeAll bufferSize texts mem (UInt64.ofNat written.length)).2 =
      if (written ++ texts.flatten).length < bufferSize.toNat then
        some (UInt64.ofNat (written ++ texts.flatten).length) else none := by
  -- by induction on the texts, whatever was written before: the first that does not fit ends the writes
  induction texts generalizing written mem with
  | nil => rw [writeAll, List.flatten_nil, List.append_nil, if_pos hroom]
  | cons text texts ih =>
    rw [List.forall_mem_cons] at htexts
    rw [writeAll, List.flatten_cons, ← List.append_assoc]
    by_cases hcut : bufferSize.toNat ≤ (written ++ text).length
    · have hlong : ¬(written ++ text ++ texts.flatten).length < bufferSize.toNat := by
        rw [List.length_append]
        omega
      rw [if_pos ((guard_iff hroom htexts.1).mpr hcut), if_neg hlong]
    · rw [if_neg (mt (guard_iff hroom htexts.1).mp hcut), offset_append htexts.1]
      exact ih (Nat.not_le.mp hcut) htexts.2 _

/-- **What was written.** When the writes go through, the buffer holds the whole text, and a NUL behind it. -/
theorem load_writeAll (hload : load mem 0 written.length = written) {texts : List (List UInt8)}
    (hnul : texts = [] → mem written.length = 0) (htexts : ∀ text ∈ texts, text.length < 2 ^ 31)
    (hfits : (written ++ texts.flatten).length < bufferSize.toNat) :
    load (writeAll bufferSize texts mem (UInt64.ofNat written.length)).1 0 (written ++ texts.flatten).length =
        written ++ texts.flatten ∧
      (writeAll bufferSize texts mem (UInt64.ofNat written.length)).1 (written ++ texts.flatten).length = 0 := by
  induction texts generalizing written mem with
  | nil =>
    rw [writeAll, List.flatten_nil, List.append_nil]
    exact ⟨hload, hnul rfl⟩
  | cons text texts ih =>
    rw [List.forall_mem_cons] at htexts
    rw [List.flatten_cons, ← List.append_assoc] at hfits ⊢
    have hshort : (written ++ text).length < bufferSize.toNat := by
      rw [List.length_append] at hfits
      omega
    have hroom : written.length < bufferSize.toNat := by
      rw [List.length_append] at hshort
      omega
    have hpassed := mt (guard_iff hroom htexts.1).mp (Nat.not_le.mpr hshort)
    rw [writeAll, if_neg hpassed, offset_append htexts.1, toNat_offset hroom, toNat_room hroom]
    rw [List.length_append] at hshort
    obtain ⟨hnext, hclosed⟩ := load_snprintf hload (by omega : text.length < bufferSize.toNat - written.length)
    exact ih hnext (fun _ => hclosed) htexts.2 hfits

/-- **Within the buffer.** Whether the texts fit or not, no byte behind the buffer changes. -/
theorem writeAll_outside (hroom : written.length < bufferSize.toNat) (texts : List (List UInt8))
    (htexts : ∀ text ∈ texts, text.length < 2 ^ 31) (mem : Memory) {i : ℕ} (hi : bufferSize.toNat ≤ i) :
    (writeAll bufferSize texts mem (UInt64.ofNat written.length)).1 i = mem i := by
  induction texts generalizing written mem with
  | nil => rfl
  | cons text texts ih =>
    rw [List.forall_mem_cons] at htexts
    have hwrite : snprintf mem (UInt64.ofNat written.length).toNat
        (bufferSize - UInt64.ofNat written.length).toNat text i = mem i := by
      rw [toNat_offset hroom, toNat_room hroom]
      exact snprintf_outside mem text (by omega)
    rw [writeAll]
    by_cases hcut : bufferSize.toNat ≤ (written ++ text).length
    · rw [if_pos ((guard_iff hroom htexts.1).mpr hcut)]
      exact hwrite
    · rw [if_neg (mt (guard_iff hroom htexts.1).mp hcut), offset_append htexts.1, ih (Nat.not_le.mp hcut) htexts.2]
      exact hwrite

end Writes

end Printf
