import Mathlib.Data.List.Basic

/-! # Well-formed UTF-8

Which byte strings are well-formed UTF-8: no stray continuation bytes, no overlong forms, no surrogates
and nothing above U+10FFFF.

* `valid` — the byte string is well-formed;
* `valid_append` — what comes behind a well-formed text;
* `valid_ascii_append`, `valid_append_ascii` — ASCII around a byte string does not change this. -/

namespace Utf8

/-- A continuation byte. -/
def isCont (b : UInt8) : Bool := 0x80 ≤ b && b ≤ 0xBF

/-- The second byte of a three-byte sequence: no overlong form, no surrogate. -/
def isSecondOfThree (a b : UInt8) : Bool :=
  isCont b && (a != 0xE0 || 0xA0 ≤ b) && (a != 0xED || b ≤ 0x9F)

/-- The second byte of a four-byte sequence: no overlong form, nothing above U+10FFFF. -/
def isSecondOfFour (a b : UInt8) : Bool :=
  isCont b && (a != 0xF0 || 0x90 ≤ b) && (a != 0xF4 || b ≤ 0x8F)

/-- The byte string is well-formed UTF-8. -/
def valid : List UInt8 → Bool
  | [] => true
  | a :: rest =>
      if a < 0x80 then valid rest
      else if 0xC2 ≤ a && a ≤ 0xDF then
        match rest with
        | b :: rest => isCont b && valid rest
        | [] => false
      else if 0xE0 ≤ a && a ≤ 0xEF then
        match rest with
        | b :: c :: rest => isSecondOfThree a b && isCont c && valid rest
        | _ => false
      else if 0xF0 ≤ a && a ≤ 0xF4 then
        match rest with
        | b :: c :: d :: rest => isSecondOfFour a b && isCont c && isCont d && valid rest
        | _ => false
      else false

/-- An ASCII byte. -/
theorem valid_cons_ascii {a : UInt8} (ha : a < 128) (s : List UInt8) : valid (a :: s) = valid s := by
  rw [valid.eq_def]
  exact if_pos ha

/-- ASCII in front. -/
theorem valid_ascii_append {front : List UInt8} (hfront : ∀ b ∈ front, b < 128) (s : List UInt8) :
    valid (front ++ s) = valid s := by
  induction front with
  | nil => rfl
  | cons a front ih =>
    rw [List.forall_mem_cons] at hfront
    rw [List.cons_append, valid_cons_ascii hfront.1, ih hfront.2]

/-- What comes behind a well-formed text. -/
theorem valid_append {s : List UInt8} (hs : valid s = true) (t : List UInt8) : valid (s ++ t) = valid t := by
  fun_induction valid s with
  | case1 => rfl
  | case2 a rest ha ih => rw [List.cons_append, valid_cons_ascii ha, ih hs]
  | case3 a ha htwo b rest ih =>
    rw [Bool.and_eq_true] at hs
    simp [valid, ha, htwo, hs.1, ih hs.2]
  | case5 a ha htwo hlead b c rest ih =>
    rw [Bool.and_eq_true, Bool.and_eq_true] at hs
    simp [valid, ha, htwo, hlead, hs.1.1, hs.1.2, ih hs.2]
  | case7 a ha htwo hthree hlead b c d rest ih =>
    rw [Bool.and_eq_true, Bool.and_eq_true, Bool.and_eq_true] at hs
    simp [valid, ha, htwo, hthree, hlead, hs.1.1.1, hs.1.1.2, hs.1.2, ih hs.2]
  | _ => cases hs

/-- An ASCII byte at the end: it is no part of a longer sequence. -/
theorem valid_append_ascii {b : UInt8} (hb : b < 128) (s : List UInt8) : valid (s ++ [b]) = valid s := by
  have hcont : isCont b = false := by
    rw [isCont, Bool.and_eq_false_iff, decide_eq_false_iff_not]
    exact .inl (UInt8.not_le.mpr hb)
  fun_induction valid s with
  | case1 => rw [List.nil_append, valid_cons_ascii hb, valid]
  | case2 a rest ha ih => rw [List.cons_append, valid_cons_ascii ha, ih]
  | case3 a ha htwo b rest ih => simp [valid, ha, htwo, ih]
  | case4 a ha htwo => simp [valid, ha, htwo, hcont]
  | case5 a ha htwo hlead b c rest ih => simp [valid, ha, htwo, hlead, ih]
  | case6 a rest ha htwo hlead hshort =>
    match rest with
    | [] => simp [valid, ha, htwo, hlead]
    | [c] => simp [valid, ha, htwo, hlead, hcont]
    | c :: d :: rest => exact absurd rfl (hshort c d rest)
  | case7 a ha htwo hthree hlead b c d rest ih => simp [valid, ha, htwo, hthree, hlead, ih]
  | case8 a rest ha htwo hthree hlead hshort =>
    match rest with
    | [] => simp [valid, ha, htwo, hthree, hlead]
    | [c] => simp [valid, ha, htwo, hthree, hlead]
    | [c, d] => simp [valid, ha, htwo, hthree, hlead, hcont]
    | c :: d :: e :: rest => exact absurd rfl (hshort c d e rest)
  | case9 a rest ha htwo hthree hfour =>
    rw [List.cons_append, valid.eq_def]
    simp [ha, htwo, hthree, hfour]

end Utf8
