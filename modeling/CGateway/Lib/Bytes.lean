import Mathlib.Algebra.Order.Ring.Int
import Mathlib.Data.List.Basic
import Mathlib.Data.List.GetD

/-! # Bytes: text, big-endian numbers and byte memory

What C code does with bytes, on lists and on memory.

* `ascii` — the bytes of a string literal; `decimal` — a number as `printf` writes it, with
  `decimal_injective`;
* `beBytes` / `beNat` — a 32-bit number in network byte order, with `beNat_beBytes` and `beBytes_beNat`;
* `hostBytes` / `hostNat` — a number in the byte order of a machine, with `hostNat_hostBytes`;
* `Memory`, `load`, `store`, `move` — a buffer as a function from offsets to bytes, so that what a
  buffer still holds behind its valid part is part of the model. -/

namespace Bytes

/-- Byte strings are compared in one way. -/
instance instLawfulBEqBytes : LawfulBEq (List UInt8) := inferInstance

/-- Tables of 64 entries have a first one. -/
instance instNeZeroSixtyFour : NeZero 64 := ⟨by decide⟩

/-- The bytes of a string literal of ASCII characters. -/
def ascii (s : String) : List UInt8 := s.toList.map fun c => UInt8.ofNat c.toNat

/-- The bytes of a literal, from its characters; its UTF-8 takes long to evaluate. -/
theorem ascii_ofList (chars : List Char) : ascii (String.ofList chars) = chars.map fun c => UInt8.ofNat c.toNat := by
  rw [ascii, String.toList_ofList]

theorem length_ascii_ofList (chars : List Char) : (ascii (String.ofList chars)).length = chars.length := by
  rw [ascii_ofList, List.length_map]

/-- A natural number in decimal (`%u`, `%lu`, `%zu`). -/
def decimalNat (n : ℕ) : List UInt8 := (Nat.toDigits 10 n).map fun c => UInt8.ofNat c.toNat

/-- An integer in decimal (`%d`, `%ld`). -/
def decimal : ℤ → List UInt8
  | .ofNat n => decimalNat n
  | .negSucc n => ascii "-" ++ decimalNat (n + 1)

section Decimal

/-- The characters of a decimal number are digits. -/
theorem toNat_of_mem_toDigits {n : ℕ} {c : Char} (h : c ∈ Nat.toDigits 10 n) : 48 ≤ c.toNat ∧ c.toNat ≤ 57 := by
  have hdigit := Nat.isDigit_of_mem_toDigits (by decide) (by decide) h
  rw [Char.isDigit, Bool.and_eq_true, decide_eq_true_eq, decide_eq_true_eq] at hdigit
  exact ⟨UInt32.le_iff_toNat_le.mp hdigit.1, UInt32.le_iff_toNat_le.mp hdigit.2⟩

/-- The bytes of a decimal number are digits. -/
theorem toNat_of_mem_decimalNat {n : ℕ} {b : UInt8} (h : b ∈ decimalNat n) : 48 ≤ b.toNat ∧ b.toNat ≤ 57 := by
  obtain ⟨c, hc, rfl⟩ := List.mem_map.mp h
  have hrange := toNat_of_mem_toDigits hc
  rw [UInt8.toNat_ofNat']
  omega

/-- Nothing but a digit is in a decimal number. -/
theorem notMem_decimalNat {b : UInt8} (h : b.toNat < 48 ∨ 57 < b.toNat) (n : ℕ) : b ∉ decimalNat n := by
  intro hmem
  have hdigit := toNat_of_mem_decimalNat hmem
  omega

/-- A decimal number read back as characters. -/
theorem map_decimalNat (n : ℕ) : (decimalNat n).map (fun b => Char.ofNat b.toNat) = Nat.toDigits 10 n := by
  rw [decimalNat, List.map_map]
  refine (List.map_congr_left fun c hc => ?_).trans (List.map_id _)
  have hrange := toNat_of_mem_toDigits hc
  have hbyte : (UInt8.ofNat c.toNat).toNat = c.toNat := by
    rw [UInt8.toNat_ofNat']
    omega
  rw [Function.comp_apply, hbyte, Char.ofNat_toNat, id]

/-- A natural number is written in one way. -/
theorem decimalNat_injective : Function.Injective decimalNat := by
  intro m n h
  have hdigits : Nat.toDigits 10 m = Nat.toDigits 10 n := by
    rw [← map_decimalNat, h, map_decimalNat]
  have hvalue := congrArg (fun digits => Nat.ofDigitChars 10 digits 0) hdigits
  simpa only [Nat.ofDigitChars_toDigits (show 1 < 10 by decide) (show 10 ≤ 10 by decide)] using hvalue

/-- The bytes of a number are digits or the sign. -/
theorem toNat_of_mem_decimal {n : ℤ} {b : UInt8} (h : b ∈ decimal n) : b = 45 ∨ 48 ≤ b.toNat ∧ b.toNat ≤ 57 := by
  cases n with
  | ofNat n => exact .inr (toNat_of_mem_decimalNat h)
  | negSucc n =>
    rcases List.mem_append.mp h with hsign | hdigit
    · exact .inl (List.mem_singleton.mp hsign)
    · exact .inr (toNat_of_mem_decimalNat hdigit)

/-- Digits do not begin with a sign. -/
theorem decimalNat_ne_sign (m n : ℕ) : decimalNat m ≠ ascii "-" ++ decimalNat n := by
  intro h
  have hmem : (45 : UInt8) ∈ decimalNat m := by
    rw [h]
    exact List.mem_append_left _ (List.mem_singleton.mpr rfl)
  exact absurd (toNat_of_mem_decimalNat hmem).1 (by decide)

/-- An integer is written in one way. -/
theorem decimal_injective : Function.Injective decimal := by
  intro m n h
  cases m with
  | ofNat m =>
    cases n with
    | ofNat n => exact congrArg Int.ofNat (decimalNat_injective h)
    | negSucc n => exact absurd h (decimalNat_ne_sign _ _)
  | negSucc m =>
    cases n with
    | ofNat n => exact absurd h.symm (decimalNat_ne_sign _ _)
    | negSucc n =>
      have hnat := decimalNat_injective (List.append_cancel_left h)
      exact congrArg Int.negSucc (Nat.succ.inj hnat)

/-- The length of a natural number in decimal. -/
theorem length_decimalNat_le {n k : ℕ} (hk : 0 < k) (h : n < 10 ^ k) : (decimalNat n).length ≤ k := by
  rw [decimalNat, List.length_map]
  exact (Nat.length_toDigits_le_iff (by decide) hk).mpr h

end Decimal

/-! ### Network byte order -/

/-- The four bytes of a 32-bit number, the most significant first (`htonl`). -/
def beBytes (n : ℕ) : List UInt8 :=
  [UInt8.ofNat (n / 2 ^ 24), UInt8.ofNat (n / 2 ^ 16), UInt8.ofNat (n / 2 ^ 8), UInt8.ofNat n]

/-- The number whose bytes are given, the most significant first (`ntohl` on four bytes). -/
def beNat (bytes : List UInt8) : ℕ := bytes.foldl (fun acc b => acc * 256 + b.toNat) 0

@[simp] theorem length_beBytes (n : ℕ) : (beBytes n).length = 4 := rfl

/-- Writing a 32-bit number in network byte order and reading it back. -/
theorem beNat_beBytes {n : ℕ} (h : n < 2 ^ 32) : beNat (beBytes n) = n := by
  simp only [beNat, beBytes, List.foldl_cons, List.foldl_nil, UInt8.toNat_ofNat']
  omega

/-- Four bytes are those of the number they write. -/
theorem beBytes_beNat {bytes : List UInt8} (h : bytes.length = 4) : beBytes (beNat bytes) = bytes := by
  obtain ⟨a, b, c, d, rfl⟩ := List.length_eq_four.mp h
  have ha := a.toNat_lt
  have hb := b.toNat_lt
  have hc := c.toNat_lt
  have hd := d.toNat_lt
  simp only [beNat, beBytes, List.foldl_cons, List.foldl_nil, List.cons.injEq, ← UInt8.toNat_inj,
    UInt8.toNat_ofNat', and_true]
  omega

/-! ### The byte order of a machine -/

/-- The order in which a machine keeps the bytes of a number. -/
inductive ByteOrder where
  | little
  | big
  deriving DecidableEq, Repr

/-- So many bytes of a number, the least significant first. -/
def leBytes : ℕ → ℕ → List UInt8
  | 0, _ => []
  | width + 1, n => UInt8.ofNat n :: leBytes width (n / 256)

/-- The number whose bytes are given, the least significant first. -/
def leNat : List UInt8 → ℕ
  | [] => 0
  | b :: bytes => b.toNat + 256 * leNat bytes

@[simp] theorem length_leBytes (width n : ℕ) : (leBytes width n).length = width := by
  induction width generalizing n with
  | zero => rfl
  | succ width ih => rw [leBytes, List.length_cons, ih]

/-- Writing a number, the least significant byte first, and reading it back. -/
theorem leNat_leBytes {width n : ℕ} (h : n < 256 ^ width) : leNat (leBytes width n) = n := by
  induction width generalizing n with
  | zero =>
    rw [pow_zero, Nat.lt_one_iff] at h
    rw [h]
    rfl
  | succ width ih =>
    have hrest : n / 256 < 256 ^ width := Nat.div_lt_of_lt_mul (by rwa [pow_succ'] at h)
    rw [leBytes, leNat, ih hrest, UInt8.toNat_ofNat']
    omega

/-- A number as `fwrite` writes it from memory. -/
def hostBytes : ByteOrder → ℕ → ℕ → List UInt8
  | .little, width, n => leBytes width n
  | .big, width, n => (leBytes width n).reverse

/-- A number as `fread` reads it into memory. -/
def hostNat : ByteOrder → List UInt8 → ℕ
  | .little, bytes => leNat bytes
  | .big, bytes => leNat bytes.reverse

@[simp] theorem length_hostBytes (order : ByteOrder) (width n : ℕ) : (hostBytes order width n).length = width := by
  cases order with
  | little => exact length_leBytes width n
  | big => rw [hostBytes, List.length_reverse, length_leBytes]

/-- Writing a number in the byte order of a machine and reading it back on the same machine. -/
theorem hostNat_hostBytes (order : ByteOrder) {width n : ℕ} (h : n < 256 ^ width) :
    hostNat order (hostBytes order width n) = n := by
  cases order with
  | little => exact leNat_leBytes h
  | big => rw [hostBytes, hostNat, List.reverse_reverse, leNat_leBytes h]

/-! ### Byte memory -/

/-- A buffer: the byte at every offset. -/
abbrev Memory := ℕ → UInt8

/-- The `len` bytes from offset `off` on. -/
def load (mem : Memory) (off len : ℕ) : List UInt8 := (List.range len).map fun i => mem (off + i)

/-- Write the bytes at offset `off`. -/
def store (mem : Memory) (off : ℕ) (bytes : List UInt8) : Memory := fun i =>
  if off ≤ i ∧ i < off + bytes.length then bytes.getD (i - off) 0 else mem i

/-- Copy `len` bytes from offset `src` to offset `dst`; the ranges may overlap (`memmove`). -/
def move (mem : Memory) (dst src len : ℕ) : Memory := store mem dst (load mem src len)

section Memory

variable (mem : Memory)

@[simp] theorem length_load (off len : ℕ) : (load mem off len).length = len := by
  simp [load]

/-- Reading two adjacent ranges. -/
theorem load_add (off a b : ℕ) : load mem off (a + b) = load mem off a ++ load mem (off + a) b := by
  simp [load, List.range_add, add_assoc]

/-- The beginning of what is read. -/
theorem take_load (off : ℕ) {k len : ℕ} (h : k ≤ len) : (load mem off len).take k = load mem off k := by
  obtain ⟨d, rfl⟩ := Nat.exists_eq_add_of_le h
  rw [load_add, List.take_left' (length_load mem off k)]

/-- What is read without its beginning. -/
theorem drop_load (off : ℕ) {k len : ℕ} (h : k ≤ len) : (load mem off len).drop k = load mem (off + k) (len - k) := by
  obtain ⟨d, rfl⟩ := Nat.exists_eq_add_of_le h
  rw [load_add, List.drop_left' (length_load mem off k), Nat.add_sub_cancel_left]

/-- Reading below a write. -/
theorem load_store_below (off len : ℕ) (bytes : List UInt8) :
    load (store mem (off + len) bytes) off len = load mem off len := by
  refine List.map_congr_left fun i hi => ?_
  rw [List.mem_range] at hi
  rw [store, if_neg (by omega)]

/-- Reading what was written. -/
theorem load_store_self (off : ℕ) (bytes : List UInt8) : load (store mem off bytes) off bytes.length = bytes := by
  refine List.ext_getElem (length_load _ _ _) fun i h₁ h₂ => ?_
  simp only [load, store, List.getElem_map, List.getElem_range]
  rw [if_pos (by omega), Nat.add_sub_cancel_left, List.getD_eq_getElem _ _ h₂]

/-- **Appending to a buffer.** Writing behind the valid part extends it by what is written, whatever
the memory held there. -/
theorem load_store_append (len : ℕ) (bytes : List UInt8) :
    load (store mem len bytes) 0 (len + bytes.length) = load mem 0 len ++ bytes := by
  have hbelow := load_store_below mem 0 len bytes
  rw [zero_add] at hbelow
  rw [load_add, zero_add, hbelow, load_store_self]

/-- **Moving the tail to the front.** -/
theorem load_move_front (src len : ℕ) : load (move mem 0 src len) 0 len = load mem src len := by
  have h := load_store_self mem 0 (load mem src len)
  rwa [length_load] at h

end Memory

end Bytes
