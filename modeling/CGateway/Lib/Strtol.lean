import CGateway.Lib.Scanf

/-! # Decimal integers in texts, and `strtol`

A numeral is blanks, perhaps a sign, and digits; it denotes an integer of any size. `strtol` reads a
numeral at the start of a text and saturates its integer at the limits of a 64-bit `long`.

* `Numeral` — the texts that denote an integer, with `Numeral.text` and `Numeral.value`;
* `leadingInteger` — the integer at the start of a text and what is behind it;
* `leadingInteger_text`, `of_leadingInteger` — it reads the numerals and nothing else;
* `Denotes` — a whole text denotes an integer, one at most (`Denotes.unique`);
* `strtol`, `strtol_whole_iff` — when it reads a whole text, and as what. -/

namespace CString

open Scanf

/-- The sign in front of a number. -/
inductive Sign where
  | none
  | plus
  | minus
  deriving DecidableEq, Repr

/-- The sign as it is written. -/
def Sign.text : Sign → List UInt8
  | .none => []
  | .plus => [43]
  | .minus => [45]

/-- A number with a sign. -/
def Sign.apply : Sign → ℕ → ℤ
  | .minus, n => -(n : ℤ)
  | _, n => n

/-- A text that denotes an integer: blanks, perhaps a sign, and digits. -/
structure Numeral where
  blanks : List UInt8
  sign : Sign
  digits : List UInt8
  blanks_space : ∀ b ∈ blanks, isSpace b = true
  digits_ne_nil : digits ≠ []
  digits_digit : ∀ b ∈ digits, isDigit b = true

/-- The bytes of a numeral. -/
def Numeral.text (numeral : Numeral) : List UInt8 := numeral.blanks ++ (numeral.sign.text ++ numeral.digits)

/-- The integer a numeral denotes. -/
def Numeral.value (numeral : Numeral) : ℤ := numeral.sign.apply (leadingNat numeral.digits)

/-- The decimal integer at the start of a text, and what is behind it. -/
def leadingInteger (s : List UInt8) : Option (ℤ × List UInt8) :=
  let signed := splitSign (s.dropWhile isSpace)
  let item := signed.2.takeWhile isDigit
  if item = [] then none
  else some (if signed.1 then -(leadingNat signed.2 : ℤ) else leadingNat signed.2, signed.2.drop item.length)

/-- `strtol` in base 10: the value, at the limits of a 64-bit `long`, and what is behind it; nothing where
there is no number. -/
def strtol (s : List UInt8) : Option (ℤ × List UInt8) :=
  (leadingInteger s).map fun item => (max (-2 ^ 63) (min (2 ^ 63 - 1) item.1), item.2)

/-! ### Signs -/

/-- A digit is no blank and no sign. -/
theorem isDigit_ne {b : UInt8} (h : isDigit b = true) : isSpace b = false ∧ b ≠ 45 ∧ b ≠ 43 := by
  refine ⟨Hex.isSpace_eq_false_of_isHexDigit (by rw [Hex.isHexDigit, h]; rfl), ?_, ?_⟩ <;> rintro rfl <;> cases h

/-- A sign in front of digits is split off. -/
theorem splitSign_text (sign : Sign) {digits : List UInt8} (hne : digits ≠ [])
    (hdigits : ∀ b ∈ digits, isDigit b = true) (rest : List UInt8) :
    splitSign (sign.text ++ (digits ++ rest)) = (decide (sign = .minus), digits ++ rest) := by
  cases sign with
  | plus => rfl
  | minus => rfl
  | none =>
    obtain ⟨d, digits, rfl⟩ := List.exists_cons_of_ne_nil hne
    obtain ⟨-, hminus, hplus⟩ := isDigit_ne (hdigits d List.mem_cons_self)
    show splitSign (d :: (digits ++ rest)) = (false, d :: (digits ++ rest))
    unfold splitSign
    split
    · next h => exact absurd (List.cons.inj h).1 hminus
    · next h => exact absurd (List.cons.inj h).1 hplus
    · rfl

/-- What is split off is a sign. -/
theorem of_splitSign (s : List UInt8) : ∃ sign : Sign,
    s = sign.text ++ (splitSign s).2 ∧ (splitSign s).1 = decide (sign = .minus) := by
  unfold splitSign
  split
  · exact ⟨.minus, rfl, rfl⟩
  · exact ⟨.plus, rfl, rfl⟩
  · exact ⟨.none, rfl, rfl⟩

/-- A number with its sign, as the flag of `splitSign` gives it. -/
theorem Sign.apply_eq (sign : Sign) (n : ℕ) :
    (if decide (sign = .minus) = true then -(n : ℤ) else n) = sign.apply n := by
  cases sign <;> rfl

/-! ### Numerals are read -/

/-- A numeral is read to its end, up to a byte that is no digit. -/
theorem leadingInteger_text (numeral : Numeral) {rest : List UInt8} (hrest : ∀ b ∈ rest.head?, isDigit b = false) :
    leadingInteger (numeral.text ++ rest) = some (numeral.value, rest) := by
  obtain ⟨blanks, sign, digits, hblanks, hne, hdigits⟩ := numeral
  -- Behind the blanks stands the sign or a digit.
  have hhead : ∀ b ∈ (sign.text ++ (digits ++ rest)).head?, isSpace b = false := by
    cases sign with
    | plus => exact fun b hb => by rw [← Option.mem_some.mp hb]; rfl
    | minus => exact fun b hb => by rw [← Option.mem_some.mp hb]; rfl
    | none =>
      obtain ⟨d, digits, rfl⟩ := List.exists_cons_of_ne_nil hne
      intro b hb
      rw [← Option.mem_some.mp hb]
      exact (isDigit_ne (hdigits d List.mem_cons_self)).1
  have htake : (digits ++ rest).takeWhile isDigit = digits := by
    rw [List.takeWhile_append_of_pos hdigits]
    cases rest with
    | nil => rw [List.takeWhile_nil, List.append_nil]
    | cons b rest => rw [List.takeWhile_cons_of_neg (by rw [hrest b rfl]; decide), List.append_nil]
  have hnat : leadingNat (digits ++ rest) = leadingNat digits := by
    rw [leadingNat, htake, leadingNat, List.takeWhile_eq_self_iff.mpr hdigits]
  rw [leadingInteger, Numeral.text, List.append_assoc, List.append_assoc, dropWhile_blanks hblanks hhead,
    splitSign_text sign hne hdigits]
  simp only
  rw [htake, if_neg hne, List.drop_left, hnat, Sign.apply_eq]
  rfl

/-- Nothing else is read. -/
theorem of_leadingInteger {s rest : List UInt8} {n : ℤ} (h : leadingInteger s = some (n, rest)) :
    ∃ numeral : Numeral, s = numeral.text ++ rest ∧ numeral.value = n := by
  obtain ⟨sign, hs, hflag⟩ := of_splitSign (s.dropWhile isSpace)
  unfold leadingInteger at h
  dsimp only at h
  generalize splitSign (s.dropWhile isSpace) = signed at h hs hflag
  split at h
  · cases h
  · next hne =>
      obtain ⟨hn, hrest⟩ := Prod.mk.inj (Option.some.inj h)
      have hdigits : ∀ b ∈ signed.2.takeWhile isDigit, isDigit b = true := fun b hb => List.mem_takeWhile_imp hb
      have hsplit : signed.2.takeWhile isDigit ++ rest = signed.2 := by
        rw [← hrest]
        exact List.prefix_iff_eq_append.mp (List.takeWhile_prefix isDigit)
      refine ⟨⟨s.takeWhile isSpace, sign, signed.2.takeWhile isDigit, fun b hb => List.mem_takeWhile_imp hb, hne,
        hdigits⟩, ?_, ?_⟩
      · rw [Numeral.text, List.append_assoc, List.append_assoc, hsplit, ← hs, List.takeWhile_append_dropWhile]
      · rw [Numeral.value, ← hn, hflag, Sign.apply_eq]
        congr 1
        rw [leadingNat, List.takeWhile_eq_self_iff.mpr hdigits, leadingNat]

/-! ### Whole texts -/

/-- The whole text denotes an integer. -/
def Denotes (s : List UInt8) (n : ℤ) : Prop := ∃ numeral : Numeral, numeral.text = s ∧ numeral.value = n

theorem denotes_iff {s : List UInt8} {n : ℤ} : Denotes s n ↔ leadingInteger s = some (n, []) := by
  constructor
  · rintro ⟨numeral, rfl, rfl⟩
    have hread := @leadingInteger_text numeral [] (fun _ hb => by cases hb)
    rwa [List.append_nil] at hread
  · intro h
    obtain ⟨numeral, hs, hn⟩ := of_leadingInteger h
    exact ⟨numeral, by rw [hs, List.append_nil], hn⟩

/-- A text denotes one integer at most. -/
theorem Denotes.unique {s : List UInt8} {m n : ℤ} (hm : Denotes s m) (hn : Denotes s n) : m = n := by
  have hsame := (denotes_iff.mp hm).symm.trans (denotes_iff.mp hn)
  exact (Prod.mk.inj (Option.some.inj hsame)).1

/-- **`strtol` reads a whole text** just when the text denotes an integer, and as that integer at the limits
of a `long`. -/
theorem strtol_whole_iff {s : List UInt8} {value : ℤ} :
    strtol s = some (value, []) ↔ ∃ n, Denotes s n ∧ value = max (-2 ^ 63) (min (2 ^ 63 - 1) n) := by
  rw [strtol, Option.map_eq_some_iff]
  constructor
  · rintro ⟨⟨n, rest⟩, hread, hvalue⟩
    obtain ⟨rfl, rfl⟩ := Prod.mk.inj hvalue
    exact ⟨n, denotes_iff.mpr hread, rfl⟩
  · rintro ⟨n, hn, rfl⟩
    exact ⟨(n, []), denotes_iff.mp hn, rfl⟩

end CString
