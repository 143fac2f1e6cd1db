import CGateway.Lib.CString

/-! # Hexadecimal numbers

Numbers as `printf` writes them with `%0Nx`, and the value of hexadecimal digits in either case.

* `Hex.isHexDigit`, `Hex.digitValue`, `Hex.number` — reading;
* `Hex.digits` — a number in so many digits;
* `Hex.number_digits` — reading back what was written;
* `Hex.ne_of_isHexDigit` — a digit is none of the bytes that are no digits. -/

namespace Hex

open CString

/-- The bytes `isxdigit` accepts. -/
def isHexDigit (b : UInt8) : Bool := isDigit b || (65 ≤ b && b ≤ 70) || (97 ≤ b && b ≤ 102)

/-- The value of a hexadecimal digit. -/
def digitValue (b : UInt8) : ℕ :=
  if b.toNat ≤ 57 then b.toNat - 48 else if b.toNat ≤ 70 then b.toNat - 55 else b.toNat - 87

/-- The number that hexadecimal digits write. -/
def number (s : List UInt8) : ℕ := s.foldl (fun acc b => acc * 16 + digitValue b) 0

/-- A hexadecimal digit in lower case. -/
def digit (n : ℕ) : UInt8 := UInt8.ofNat (if n < 10 then 48 + n else 87 + n)

/-- A number below `16 ^ width` as `%0Nx` writes it with that width. -/
def digits : ℕ → ℕ → List UInt8
  | 0, _ => []
  | width + 1, n => digits width (n / 16) ++ [digit (n % 16)]

section Digits

variable {b : UInt8} {n : ℕ}

/-- The three ranges of digits. -/
theorem isHexDigit_iff : isHexDigit b = true ↔ (48 ≤ b.toNat ∧ b.toNat ≤ 57) ∨ (65 ≤ b.toNat ∧ b.toNat ≤ 70) ∨
    (97 ≤ b.toNat ∧ b.toNat ≤ 102) := by
  simp only [isHexDigit, isDigit, Bool.or_eq_true, Bool.and_eq_true, decide_eq_true_eq, UInt8.le_iff_toNat_le, or_assoc]
  rfl

/-- A digit is none of the other bytes. -/
theorem ne_of_isHexDigit {c : UInt8} (hb : isHexDigit b = true) (hc : isHexDigit c = false) : b ≠ c := by
  rintro rfl
  rw [hb] at hc
  cases hc

/-- A digit is no blank. -/
theorem isSpace_eq_false_of_isHexDigit (hb : isHexDigit b = true) : isSpace b = false := by
  rw [isHexDigit_iff] at hb
  have hne : b ≠ 32 := by
    rintro rfl
    exact absurd hb (by decide)
  have hle : ¬b ≤ 13 := by
    rw [UInt8.le_iff_toNat_le]
    show ¬b.toNat ≤ 13
    omega
  rw [isSpace, beq_eq_false_iff_ne.mpr hne, decide_eq_false hle, Bool.and_false, Bool.or_false]

theorem digitValue_lt (hb : isHexDigit b = true) : digitValue b < 16 := by
  rw [isHexDigit_iff] at hb
  rw [digitValue]
  split
  · omega
  · split <;> omega

/-- The byte of a digit. -/
theorem toNat_digit (h : n < 16) : (digit n).toNat = if n < 10 then 48 + n else 87 + n := by
  rw [digit, UInt8.toNat_ofNat']
  split <;> omega

theorem isHexDigit_digit (h : n < 16) : isHexDigit (digit n) = true := by
  rw [isHexDigit_iff, toNat_digit h]
  split <;> omega

theorem digitValue_digit (h : n < 16) : digitValue (digit n) = n := by
  rw [digitValue, toNat_digit h]
  by_cases hsmall : n < 10
  · rw [if_pos hsmall, if_pos (by omega)]
    omega
  · rw [if_neg hsmall, if_neg (by omega), if_neg (by omega)]
    omega

end Digits

section Numbers

@[simp] theorem length_digits (width n : ℕ) : (digits width n).length = width := by
  induction width generalizing n with
  | zero => rfl
  | succ width ih => rw [digits, List.length_append, ih, List.length_singleton]

theorem isHexDigit_of_mem_digits {width n : ℕ} {b : UInt8} (h : b ∈ digits width n) : isHexDigit b = true := by
  induction width generalizing n with
  | zero => exact absurd h List.not_mem_nil
  | succ width ih =>
    rcases List.mem_append.mp h with hfront | hlast
    · exact ih hfront
    · rw [List.mem_singleton.mp hlast]
      exact isHexDigit_digit (Nat.mod_lt n (by decide))

/-- One more digit. -/
theorem number_concat (s : List UInt8) (b : UInt8) : number (s ++ [b]) = number s * 16 + digitValue b := by
  rw [number, List.foldl_append]
  rfl

/-- **Reading back** what was written. -/
theorem number_digits {width n : ℕ} (h : n < 16 ^ width) : number (digits width n) = n := by
  induction width generalizing n with
  | zero =>
    rw [pow_zero, Nat.lt_one_iff] at h
    rw [h]
    rfl
  | succ width ih =>
    -- the last digit is the remainder, the others are the digits of the quotient
    have hrest : n / 16 < 16 ^ width := Nat.div_lt_of_lt_mul (by rwa [pow_succ'] at h)
    rw [digits, number_concat, ih hrest, digitValue_digit (Nat.mod_lt n (by decide))]
    omega

end Numbers

end Hex
