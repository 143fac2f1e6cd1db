import CGateway.Lib.CString

/-! # Where `strstr` finds a pattern

A text is searched from left to right. `Skips pattern s` says that no match of the pattern begins within `s`, whatever
follows it, so that a search may go on behind it; texts that are skipped compose.

* `skips_of_notMem`, `skips_field` — a text without the first byte of the pattern, and one without the pattern that is
  closed by a byte that is not in the pattern;
* `Skips.append`, `Skips.flatten` — one text after the other;
* `Skips.splitFirst_eq` — the pattern behind a text that is skipped is found there;
* `behind` — the text that the search leaves. -/

namespace CString

open Bytes

/-- No match of the pattern begins within the text. -/
def Skips (pattern s : List UInt8) : Prop :=
  ∀ rest, splitFirst pattern (s ++ rest) = (splitFirst pattern rest).map fun parts => (s ++ parts.1, parts.2)

section Skips

variable {pattern s t : List UInt8}

theorem Skips.nil (pattern : List UInt8) : Skips pattern [] := by
  intro rest
  simp

theorem Skips.append (hs : Skips pattern s) (ht : Skips pattern t) : Skips pattern (s ++ t) := by
  intro rest
  rw [List.append_assoc, hs, ht, Option.map_map]
  refine congrArg (fun f => Option.map f _) ?_
  funext parts
  simp

theorem Skips.flatten {pieces : List (List UInt8)} (h : ∀ piece ∈ pieces, Skips pattern piece) :
    Skips pattern pieces.flatten := by
  induction pieces with
  | nil => exact .nil pattern
  | cons piece pieces ih =>
    rw [List.forall_mem_cons] at h
    rw [List.flatten_cons]
    exact h.1.append (ih h.2)

/-- A text without the first byte of the pattern. -/
theorem skips_of_notMem {p : UInt8} (h : p ∉ s) : Skips (p :: pattern) s := fun rest => splitFirst_append h rest

/-- One byte that no match begins with there. -/
theorem splitFirst_cons_of_not {b : UInt8} (h : pattern.isPrefixOf (b :: s) = false) :
    splitFirst pattern (b :: s) = (splitFirst pattern s).map fun parts => (b :: parts.1, parts.2) := by
  rw [splitFirst, if_neg (by rw [h]; decide)]

/-- A match that does not reach the separator is within the text before it. -/
theorem prefix_of_prefix_sep {sep : UInt8} (hsep : sep ∉ pattern) {rest : List UInt8}
    (h : pattern <+: s ++ sep :: rest) : pattern <+: s := by
  rcases List.prefix_or_prefix_of_prefix h (List.prefix_append s (sep :: rest)) with hstart | hstart
  · exact hstart
  · -- The pattern goes beyond the text: then it is the text, or it has the separator.
    obtain ⟨more, rfl⟩ := hstart
    cases more with
    | nil => simp
    | cons b more =>
      exfalso
      rw [List.prefix_append_right_inj, List.cons_prefix_cons] at h
      refine hsep ?_
      rw [← h.1]
      simp

/-- A text without the pattern, closed by a byte that is not in the pattern. -/
theorem skips_field {sep : UInt8} (hne : pattern ≠ []) (hsep : sep ∉ pattern) (hs : contains pattern s = false) :
    Skips pattern (s ++ [sep]) := by
  intro rest
  rw [List.append_assoc]
  induction s with
  | nil =>
    have hnot : pattern.isPrefixOf (sep :: rest) = false := by
      rw [Bool.eq_false_iff, Ne, List.isPrefixOf_iff_prefix]
      intro hstart
      exact hne (List.prefix_nil.mp (prefix_of_prefix_sep (s := []) hsep hstart))
    exact splitFirst_cons_of_not hnot
  | cons b s ih =>
    have hnot : pattern.isPrefixOf (b :: s) = false := by
      rw [contains, splitFirst] at hs
      split at hs
      · cases hs
      · next hnot => exact Bool.eq_false_iff.mpr hnot
    have hrest : contains pattern s = false := by
      rw [contains, splitFirst_cons_of_not hnot, Option.isSome_map] at hs
      exact hs
    have hlong : pattern.isPrefixOf (b :: (s ++ sep :: rest)) = false := by
      rw [Bool.eq_false_iff, Ne, List.isPrefixOf_iff_prefix] at hnot ⊢
      exact fun hstart => hnot (prefix_of_prefix_sep (s := b :: s) hsep hstart)
    have hgo := ih hrest
    rw [List.cons_append, List.singleton_append, splitFirst_cons_of_not hlong]
    rw [List.singleton_append] at hgo
    rw [hgo, Option.map_map]
    rfl

theorem splitFirst_self (hne : pattern ≠ []) (rest : List UInt8) :
    splitFirst pattern (pattern ++ rest) = some ([], rest) := by
  cases pattern with
  | nil => exact absurd rfl hne
  | cons p pattern =>
    have hstart : (p :: pattern).isPrefixOf (p :: (pattern ++ rest)) = true :=
      List.isPrefixOf_iff_prefix.mpr (List.prefix_append (p :: pattern) rest)
    rw [List.cons_append, splitFirst, if_pos hstart]
    simp

/-- The first match is behind what is skipped. -/
theorem Skips.splitFirst_eq (hs : Skips pattern s) (hne : pattern ≠ []) (rest : List UInt8) :
    splitFirst pattern (s ++ (pattern ++ rest)) = some (s, rest) := by
  rw [hs, splitFirst_self hne, Option.map_some, List.append_nil]

/-- What stands before the first match, with another text behind the match. -/
theorem splitFirst_front (hne : pattern ≠ []) {front back : List UInt8} (h : splitFirst pattern s = some (front, back))
    (rest : List UInt8) : splitFirst pattern (front ++ (pattern ++ rest)) = some (front, rest) := by
  induction s generalizing front with
  | nil =>
    rw [splitFirst, if_neg hne] at h
    cases h
  | cons b s ih =>
    rw [splitFirst] at h
    split at h
    · obtain ⟨rfl, -⟩ := Prod.mk.inj (Option.some.inj h)
      exact splitFirst_self hne rest
    · next hnot =>
        obtain ⟨⟨front', back'⟩, hfound, heq⟩ := Option.map_eq_some_iff.mp h
        obtain ⟨rfl, rfl⟩ := Prod.mk.inj heq
        -- An earlier match would end within the first one, and so have been found.
        have hlater : pattern.isPrefixOf (b :: (front' ++ (pattern ++ rest))) = false := by
          rw [Bool.eq_false_iff, Ne, List.isPrefixOf_iff_prefix]
          rw [List.isPrefixOf_iff_prefix, splitFirst_eq_some hfound] at hnot
          intro hearly
          rw [← List.append_assoc, ← List.cons_append] at hearly
          have hwithin : pattern <+: b :: (front' ++ pattern) :=
            List.prefix_of_prefix_length_le hearly (List.prefix_append _ rest) (by simp; omega)
          rw [← List.cons_append] at hnot
          exact hnot (hwithin.trans (List.prefix_append _ back'))
        rw [List.cons_append, splitFirst_cons_of_not hlater, ih hfound]
        rfl

/-- The text behind the first match. -/
def behind (pattern s : List UInt8) : Option (List UInt8) := (splitFirst pattern s).map (·.2)

theorem contains_eq_isSome (pattern s : List UInt8) : contains pattern s = (behind pattern s).isSome := by
  rw [contains, behind, Option.isSome_map]

theorem Skips.behind_eq (hs : Skips pattern s) (rest : List UInt8) :
    behind pattern (s ++ rest) = behind pattern rest := by
  rw [behind, hs, Option.map_map]
  rfl

theorem behind_cons_of_not {b : UInt8} (h : pattern.isPrefixOf (b :: s) = false) :
    behind pattern (b :: s) = behind pattern s := by
  rw [behind, splitFirst_cons_of_not h, Option.map_map]
  rfl

theorem behind_nil (hne : pattern ≠ []) : behind pattern [] = none := by
  rw [behind, splitFirst, if_neg hne]
  rfl

end Skips

/-! ### Numbers in texts -/

theorem leadingNat_append {b : UInt8} (hb : isDigit b = false) (s rest : List UInt8) :
    leadingNat (s ++ b :: rest) = leadingNat s := by
  have htake : (s ++ b :: rest).takeWhile isDigit = s.takeWhile isDigit := by
    induction s with
    | nil => rw [List.nil_append, List.takeWhile_cons_of_neg (by rw [hb]; decide), List.takeWhile_nil]
    | cons c s ih => rw [List.cons_append, List.takeWhile_cons, List.takeWhile_cons, ih]
  rw [leadingNat, htake, leadingNat]

/-- Blanks in front of a number are skipped once more. -/
theorem atoi_skipBlanks (s : List UInt8) : atoi (skipBlanks s) = atoi s := by
  have hdrop : (skipBlanks s).dropWhile isSpace = s.dropWhile isSpace := by
    induction s with
    | nil => rfl
    | cons b s ih =>
      rw [skipBlanks, List.dropWhile_cons]
      split
      · next hblank =>
          have hspace : isSpace b = true := by
            rw [Bool.or_eq_true, beq_iff_eq, beq_iff_eq] at hblank
            rcases hblank with rfl | rfl <;> rfl
          rw [List.dropWhile_cons_of_pos hspace]
          exact ih
      · rfl
  rw [atoi, hdrop, atoi]

/-- The number behind the blanks, with its sign. -/
def signedNat : List UInt8 → ℤ
  | 45 :: rest => -(leadingNat rest : ℤ)
  | 43 :: rest => leadingNat rest
  | s => leadingNat s

theorem signedNat_of_ne {b : UInt8} (hminus : b ≠ 45) (hplus : b ≠ 43) (s : List UInt8) :
    signedNat (b :: s) = leadingNat (b :: s) := by
  unfold signedNat
  split
  · next h => exact absurd (List.cons.inj h).1 hminus
  · next h => exact absurd (List.cons.inj h).1 hplus
  · rfl

theorem signedNat_append {b : UInt8} (hb : isDigit b = false) (c : UInt8) (s rest : List UInt8) :
    signedNat (c :: (s ++ b :: rest)) = signedNat (c :: s) := by
  by_cases hminus : c = 45
  · subst hminus
    show -(leadingNat (s ++ b :: rest) : ℤ) = -(leadingNat s : ℤ)
    rw [leadingNat_append hb]
  · by_cases hplus : c = 43
    · subst hplus
      show (leadingNat (s ++ b :: rest) : ℤ) = leadingNat s
      rw [leadingNat_append hb]
    · rw [signedNat_of_ne hminus hplus, signedNat_of_ne hminus hplus, ← List.cons_append, leadingNat_append hb]

theorem atoi_eq (s : List UInt8) :
    atoi s = (max (-2 ^ 63) (min (2 ^ 63 - 1) (signedNat (s.dropWhile isSpace)))).bmod (2 ^ 32) := by
  unfold atoi
  dsimp only
  generalize s.dropWhile isSpace = t
  split
  · rfl
  · rfl
  · next hminus hplus => rw [signedNat.eq_3 t hminus hplus]

/-- The number before a line end that no number follows. -/
theorem atoi_append_line {b : UInt8} (hspace : isSpace b = false) (hdigit : isDigit b = false) (hminus : b ≠ 45)
    (hplus : b ≠ 43) (s rest : List UInt8) : atoi (s ++ 10 :: b :: rest) = atoi s := by
  rw [atoi_eq, atoi_eq, List.dropWhile_append]
  cases hdrop : s.dropWhile isSpace with
  | nil =>
    -- Nothing but blanks: the search for a number goes on in the next line.
    have hnext : (10 :: b :: rest).dropWhile isSpace = b :: rest := by
      rw [List.dropWhile_cons_of_pos rfl, List.dropWhile_cons_of_neg (by rw [hspace]; decide)]
    have hnone : leadingNat (b :: rest) = 0 := by
      rw [leadingNat, List.takeWhile_cons_of_neg (by rw [hdigit]; decide)]
      rfl
    rw [List.isEmpty_nil, if_pos rfl, hnext, signedNat_of_ne hminus hplus, hnone]
    rfl
  | cons c t =>
    rw [List.isEmpty_cons, if_neg Bool.false_ne_true, List.cons_append, signedNat_append rfl]

end CString
