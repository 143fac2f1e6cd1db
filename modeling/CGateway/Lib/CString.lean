import Mathlib.Data.List.TakeWhile
import CGateway.Lib.Bytes

/-! # C strings

The string functions of the C library, on lists of bytes. A `char *` is the list of the bytes before its
NUL.

* `cstr` — the C string that starts a buffer;
* `splitFirst` — `strstr`, with the text before and behind the match;
* `tokens` — all that `strtok` returns, one call after the other;
* `copyField` — `strncpy` into a field that is then terminated;
* `atoi` — with the blanks, the sign and the wraparound of the C function. -/

namespace CString

open Bytes

/-- The C string that a buffer holds: the bytes before the first NUL. -/
def cstr (buffer : List UInt8) : List UInt8 := buffer.takeWhile (· != 0)

/-- `strstr`: the text before and behind the first occurrence of the pattern. -/
def splitFirst (pattern : List UInt8) : List UInt8 → Option (List UInt8 × List UInt8)
  | [] => if pattern = [] then some ([], []) else none
  | b :: bs =>
      if pattern.isPrefixOf (b :: bs) then some ([], (b :: bs).drop pattern.length)
      else (splitFirst pattern bs).map fun parts => (b :: parts.1, parts.2)

/-- The pattern occurs. -/
def contains (pattern s : List UInt8) : Bool := (splitFirst pattern s).isSome

/-- The tokens `strtok` returns: the non-empty pieces between delimiters. -/
def tokens (isDelim : UInt8 → Bool) (s : List UInt8) : List (List UInt8) :=
  (s.splitOnP isDelim).filter (· != [])

/-- `strncpy` into a field of `size` bytes whose last byte is then set to NUL. -/
def copyField (size : ℕ) (s : List UInt8) : List UInt8 := (cstr s).take (size - 1)

/-- Skip blanks and tabs. -/
def skipBlanks (s : List UInt8) : List UInt8 := s.dropWhile fun b => b == 32 || b == 9

/-- `tolower` on ASCII. -/
def toLower (b : UInt8) : UInt8 := if 65 ≤ b ∧ b ≤ 90 then b + 32 else b

/-- `strcasecmp(a, b) == 0`. -/
def equalsIgnoreCase (a b : List UInt8) : Bool := a.map toLower == b.map toLower

/-- `strncasecmp(s, start, strlen(start)) == 0`. -/
def startsIgnoreCase (start s : List UInt8) : Bool := (start.map toLower).isPrefixOf (s.map toLower)

/-- The bytes `isspace` accepts. -/
def isSpace (b : UInt8) : Bool := b == 32 || (9 ≤ b && b ≤ 13)

/-- The bytes `isdigit` accepts. -/
def isDigit (b : UInt8) : Bool := 48 ≤ b && b ≤ 57

/-- The number the leading digits write. -/
def leadingNat (s : List UInt8) : ℕ :=
  (s.takeWhile isDigit).foldl (fun acc b => acc * 10 + (b.toNat - 48)) 0

/-- `atoi`: `strtol` with its saturation, cut to an `int`. -/
def atoi (s : List UInt8) : ℤ :=
  let s := s.dropWhile isSpace
  let value : ℤ := match s with
    | 45 :: rest => -(leadingNat rest : ℤ)
    | 43 :: rest => leadingNat rest
    | _ => leadingNat s
  (max (-2 ^ 63) (min (2 ^ 63 - 1) value)).bmod (2 ^ 32)

/-- What `atoi` reads fits an `int`. -/
theorem atoi_lt (s : List UInt8) : atoi s < 2 ^ 31 := by
  rw [atoi]
  exact Int.bmod_lt (by decide)

section Tokens

variable {isDelim : UInt8 → Bool}

/-- A token at the beginning of the text. -/
theorem tokens_append_delim {w : List UInt8} (hne : w ≠ []) (hw : ∀ b ∈ w, isDelim b = false)
    {d : UInt8} (hd : isDelim d = true) (rest : List UInt8) :
    tokens isDelim (w ++ d :: rest) = w :: tokens isDelim rest := by
  have hsplit := List.splitOnP_append_cons_of_forall_mem hw d hd rest
  rw [tokens, hsplit, List.filter_cons_of_pos (by simpa using hne), tokens]

/-- A delimiter at the beginning is skipped. -/
theorem tokens_cons_delim {d : UInt8} (hd : isDelim d = true) (rest : List UInt8) :
    tokens isDelim (d :: rest) = tokens isDelim rest := by
  rw [tokens, List.splitOnP_cons_eq_if_modifyHead, if_pos hd, List.filter_cons_of_neg (by simp), tokens]

/-- A text without delimiters is its only token. -/
theorem tokens_of_no_delim {w : List UInt8} (hne : w ≠ []) (hw : ∀ b ∈ w, isDelim b = false) :
    tokens isDelim w = [w] := by
  have hsplit := List.splitOnP_eq_singleton hw
  rw [tokens, hsplit, List.filter_cons_of_pos (by simpa using hne), List.filter_nil]

/-- The bytes of a token are bytes of the text. -/
theorem mem_of_mem_tokens {s t : List UInt8} (ht : t ∈ tokens isDelim s) {b : UInt8} (hb : b ∈ t) : b ∈ s := by
  have hpiece : t ∈ s.splitOnP isDelim := (List.mem_filter.mp ht).1
  clear ht
  induction s generalizing t with
  | nil =>
    rw [List.splitOnP_nil, List.mem_singleton] at hpiece
    rw [hpiece] at hb
    exact hb
  | cons a s ih =>
    rw [List.splitOnP_cons_eq_if_modifyHead] at hpiece
    split at hpiece
    · rcases List.mem_cons.mp hpiece with rfl | hpiece
      · cases hb
      · exact List.mem_cons_of_mem a (ih hb hpiece)
    · cases hsplit : s.splitOnP isDelim with
      | nil => exact absurd hsplit (List.splitOnP_ne_nil _ _)
      | cons first others =>
        rw [hsplit, List.modifyHead_cons] at hpiece
        rw [hsplit] at ih
        rcases List.mem_cons.mp hpiece with rfl | hpiece
        · rcases List.mem_cons.mp hb with rfl | hb
          · exact List.mem_cons_self
          · exact List.mem_cons_of_mem a (ih hb List.mem_cons_self)
        · exact List.mem_cons_of_mem a (ih hb (List.mem_cons_of_mem first hpiece))

end Tokens

section Fields

/-- A C string has no NUL. -/
theorem zero_notMem_cstr (buffer : List UInt8) : (0 : UInt8) ∉ cstr buffer := by
  intro hzero
  have hne := List.mem_takeWhile_imp hzero
  exact absurd hne (by decide)

/-- The NUL that ends a text ends the C string. -/
theorem cstr_append_zero (s : List UInt8) : cstr (s ++ [0]) = cstr s := by
  induction s with
  | nil => rfl
  | cons b s ih =>
    rw [cstr, cstr] at ih ⊢
    rw [List.cons_append, List.takeWhile_cons, List.takeWhile_cons, ih]

/-- A text without a NUL is a C string. -/
theorem cstr_of_no_zero {s : List UInt8} (hs : (0 : UInt8) ∉ s) : cstr s = s := by
  refine List.takeWhile_eq_self_iff.mpr fun b hb => ?_
  have hne : b ≠ 0 := fun h => hs (h ▸ hb)
  simpa using hne

/-- The C string in the beginning of a buffer. -/
theorem cstr_take (s : List UInt8) (n : ℕ) : cstr (s.take n) = (cstr s).take n := by
  induction s generalizing n with
  | nil => simp [cstr]
  | cons b s ih =>
    cases n with
    | zero => simp [cstr]
    | succ n =>
      unfold cstr at ih ⊢
      rw [List.take_succ_cons, List.takeWhile_cons, List.takeWhile_cons]
      split
      · rw [List.take_succ_cons, ih]
      · rfl

/-- The C string goes on behind a text without a NUL. -/
theorem cstr_append {front : List UInt8} (hfront : (0 : UInt8) ∉ front) (rest : List UInt8) :
    cstr (front ++ rest) = front ++ cstr rest := by
  refine List.takeWhile_append_of_pos fun b hb => ?_
  have hne : b ≠ 0 := fun h => hfront (h ▸ hb)
  simpa using hne

/-- A field holds one byte less than its size. -/
theorem length_copyField_le (size : ℕ) (s : List UInt8) : (copyField size s).length ≤ size - 1 := List.length_take_le ..

end Fields

section Separators

variable {sep : UInt8} {a a' x x' : List UInt8}

/-- The text before the first separator, and the rest. -/
theorem append_sep_inj (ha : sep ∉ a) (ha' : sep ∉ a') (h : a ++ sep :: x = a' ++ sep :: x') : a = a' ∧ x = x' := by
  induction a generalizing a' with
  | nil =>
    cases a' with
    | nil => exact ⟨rfl, (List.cons.inj h).2⟩
    | cons b a' =>
      rw [(List.cons.inj h).1] at ha'
      exact absurd List.mem_cons_self ha'
  | cons b a ih =>
    cases a' with
    | nil =>
      rw [← (List.cons.inj h).1] at ha
      exact absurd List.mem_cons_self ha
    | cons b' a' =>
      obtain ⟨hb, hrest⟩ := List.cons.inj h
      obtain ⟨haa, hxx⟩ := ih (fun hmem => ha (List.mem_cons_of_mem b hmem))
        (fun hmem => ha' (List.mem_cons_of_mem b' hmem)) hrest
      exact ⟨by rw [hb, haa], hxx⟩

/-- The text behind the last separator. -/
theorem append_sep_inj_last (ha : sep ∉ a) (ha' : sep ∉ a') (h : x ++ sep :: a = x' ++ sep :: a') : a = a' := by
  have hreverse : a.reverse ++ sep :: x.reverse = a'.reverse ++ sep :: x'.reverse := by
    have := congrArg List.reverse h
    simpa using this
  have hinj := append_sep_inj (by simpa using ha) (by simpa using ha') hreverse
  exact List.reverse_inj.mp hinj.1

/-- What stands before the first separator has none. -/
theorem sep_notMem_takeWhile (sep : UInt8) (x : List UInt8) : sep ∉ x.takeWhile (· != sep) := by
  intro hmem
  have hne := List.mem_takeWhile_imp hmem
  rw [bne_self_eq_false] at hne
  cases hne

/-- The bytes of a text without the separator. -/
theorem bne_of_sep_notMem (ha : sep ∉ a) : ∀ b ∈ a, (b != sep) = true := by
  intro b hb
  rw [bne_iff_ne]
  rintro rfl
  exact ha hb

/-- The text before the first separator. -/
theorem takeWhile_append_sep (ha : sep ∉ a) : (a ++ sep :: x).takeWhile (· != sep) = a := by
  rw [List.takeWhile_append_of_pos (bne_of_sep_notMem ha), List.takeWhile_cons_of_neg (by simp), List.append_nil]

/-- The text behind the first separator. -/
theorem drop_dropWhile_append_sep (ha : sep ∉ a) : ((a ++ sep :: x).dropWhile (· != sep)).drop 1 = x := by
  rw [List.dropWhile_append_of_pos (bne_of_sep_notMem ha), List.dropWhile_cons_of_neg (by simp), List.drop_one,
    List.tail_cons]

/-- A text with a separator, taken apart at the first one. -/
theorem eq_append_sep (hmem : sep ∈ x) : x = x.takeWhile (· != sep) ++ sep :: (x.dropWhile (· != sep)).drop 1 := by
  obtain ⟨before, behind, rfl, hfree⟩ := List.eq_append_cons_of_mem hmem
  rw [takeWhile_append_sep hfree, drop_dropWhile_append_sep hfree]

/-- Two texts joined by a separator are equal if their parts are, or if the first part of one carries on over a
separator into the second part of the other. -/
theorem append_sep_eq_iff : a ++ sep :: x = a' ++ sep :: x' ↔
    (a = a' ∧ x = x') ∨ (∃ m, a' = a ++ sep :: m ∧ x = m ++ sep :: x') ∨
      ∃ m, a = a' ++ sep :: m ∧ x' = m ++ sep :: x := by
  constructor
  · intro h
    rcases List.append_eq_append_iff.mp h with ⟨m, ha, hx⟩ | ⟨m, ha, hx⟩
    · cases m with
      | nil => exact .inl ⟨by rw [ha, List.append_nil], (List.cons.inj hx).2⟩
      | cons b m =>
        obtain ⟨rfl, hrest⟩ := List.cons.inj hx
        exact .inr (.inl ⟨m, ha, hrest⟩)
    · cases m with
      | nil => exact .inl ⟨by rw [ha, List.append_nil], (List.cons.inj hx).2.symm⟩
      | cons b m =>
        obtain ⟨rfl, hrest⟩ := List.cons.inj hx
        exact .inr (.inr ⟨m, ha, hrest⟩)
  · rintro (⟨rfl, rfl⟩ | ⟨m, rfl, rfl⟩ | ⟨m, rfl, rfl⟩)
    · rfl
    · rw [List.append_assoc, List.cons_append]
    · rw [List.append_assoc, List.cons_append]

end Separators

/-- What the beginning of a text begins with. -/
theorem isPrefixOf_take (start s : List UInt8) (n : ℕ) :
    start.isPrefixOf (s.take n) = (decide (start.length ≤ n) && start.isPrefixOf s) := by
  rw [Bool.eq_iff_iff, Bool.and_eq_true, decide_eq_true_eq, List.isPrefixOf_iff_prefix, List.isPrefixOf_iff_prefix]
  constructor
  · intro h
    exact ⟨le_trans h.length_le (List.length_take_le n s), h.trans (List.take_prefix n s)⟩
  · rintro ⟨hlength, h⟩
    exact List.prefix_take_iff.mpr ⟨h, hlength⟩

section SplitFirst

variable {pattern : List UInt8}

/-- What `strstr` finds is there. -/
theorem splitFirst_eq_some {s before behind : List UInt8}
    (h : splitFirst pattern s = some (before, behind)) : s = before ++ pattern ++ behind := by
  induction s generalizing before behind with
  | nil =>
    rw [splitFirst] at h
    split at h
    · rename_i hp
      obtain ⟨rfl, rfl⟩ := Prod.mk.inj (Option.some.inj h)
      simp [hp]
    · cases h
  | cons b bs ih =>
    rw [splitFirst] at h
    split at h
    · rename_i hp
      obtain ⟨rfl, rfl⟩ := Prod.mk.inj (Option.some.inj h)
      obtain ⟨rest, hrest⟩ := List.isPrefixOf_iff_prefix.mp hp
      rw [← hrest]
      simp
    · obtain ⟨⟨x, y⟩, hxy, heq⟩ := Option.map_eq_some_iff.mp h
      obtain ⟨rfl, rfl⟩ := Prod.mk.inj heq
      rw [ih hxy]
      simp

/-- No match begins within a text without the first byte of the pattern. -/
theorem splitFirst_append {p : UInt8} {front : List UInt8} (hfront : p ∉ front) (rest : List UInt8) :
    splitFirst (p :: pattern) (front ++ rest) =
      (splitFirst (p :: pattern) rest).map fun parts => (front ++ parts.1, parts.2) := by
  induction front with
  | nil => simp
  | cons b front ih =>
    rw [List.mem_cons, not_or] at hfront
    rw [List.cons_append, splitFirst, if_neg (by simp [List.isPrefixOf, hfront.1]), ih hfront.2, Option.map_map]
    rfl

end SplitFirst

end CString
