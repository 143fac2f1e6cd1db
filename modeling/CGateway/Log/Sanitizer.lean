import Mathlib.Logic.Function.Iterate
import CGateway.Lib.CString

/-! # The log sanitizer and its buffer

`log_sanitizer.c`: a scanner copies a JSON text to a buffer and masks what follows a quoted text with a sensitive
word in it. It knows no grammar. The space left is kept in a `size_t`, and every byte is written under a test of this
counter but one: the opening quotation mark of a value to be masked. With no space left there, the counter wraps and
the rest of the text is written behind the buffer.

* `Sanitizer`, `Sanitizer.step` — the variables of `jsonl_sanitize_json`, and one turn of its loop;
* `jsonlSanitizeJson` — what is written from `out_buf` on;
* `Sanitizer.opensFull` — the buffer is full in front of a quotation mark that is taken to open a secret;
* `sanitizer_bounds_iff` — the loop ends, and nothing is written behind the buffer if and only if this never
  happens. -/

namespace CGateway

open Bytes CString

/-! ### The scanner -/

/-- `SENSITIVE_KEYS`. -/
def sensitiveKeys : List (List UInt8) :=
  ["token", "api_key", "authorization", "password", "secret", "auth", "bearer", "key"].map ascii

/-- `jsonl_is_sensitive_key`: one of the words, which are in small letters, occurs in any letter case. -/
def jsonlIsSensitiveKey (key : List UInt8) : Bool :=
  sensitiveKeys.any fun word => contains word (key.map toLower)

/-- The variables of `jsonl_sanitize_json`: what is left of the text before its NUL, what was written from `out_buf`
on (`dst` is behind it), and the space that is taken to be left. -/
@[ext] structure Sanitizer where
  src : List UInt8
  out : List UInt8
  remaining : UInt64
  deriving DecidableEq, Repr

namespace Sanitizer

/-- `*dst++ = *src++; remaining--;` -/
def copy (s : Sanitizer) : Sanitizer :=
  match s.src with
  | [] => s
  | b :: src => ⟨src, s.out ++ [b], s.remaining - 1⟩

/-- The loops that copy while there is space, for at most so many bytes. -/
def copyWhile (p : UInt8 → Bool) : ℕ → Sanitizer → Sanitizer
  | 0, s => s
  | limit + 1, s => if s.src.head?.any p ∧ 0 < s.remaining then copyWhile p limit s.copy else s

/-- `if (*src == '"' && remaining > 0)`: copy a closing quotation mark. -/
def copyQuote (s : Sanitizer) : Sanitizer :=
  if s.src.head? = some 34 ∧ 0 < s.remaining then s.copy else s

/-- The loop over the value of a string. -/
def skipString (s : Sanitizer) : Sanitizer := { s with src := s.src.dropWhile (· != 34) }

/-- The stars, if there is space for the three. -/
def writeStars (s : Sanitizer) : Sanitizer :=
  if 3 ≤ s.remaining then ⟨s.src, s.out ++ ascii "***", s.remaining - 3⟩ else s

/-- A string is masked. There is no test in front of its opening quotation mark. -/
def maskString (s : Sanitizer) : Sanitizer := s.copy.skipString.writeStars.copyQuote

/-- The bytes that are taken to end a value that is no string. -/
def isDelimiter (b : UInt8) : Bool := b == 44 || b == 125 || b == 93

/-- `"***"`, the mask of a value that is no string. -/
def valueMask : List UInt8 := ascii "\"***\""

/-- Another value is masked: the text up to a delimiter is skipped and the mask is written as far as it fits. -/
def maskOther (s : Sanitizer) : Sanitizer :=
  let n := min valueMask.length s.remaining.toNat
  ⟨s.src.dropWhile fun b => !isDelimiter b, s.out ++ valueMask.take n, s.remaining - UInt64.ofNat n⟩

/-- The value of a sensitive key is masked. -/
def maskValue (s : Sanitizer) : Sanitizer := if s.src.head? = some 34 then s.maskString else s.maskOther

/-- A quoted text is copied, as a key of at most 63 bytes. The key, and the state behind it. -/
def readKey (s : Sanitizer) : List UInt8 × Sanitizer :=
  let opened := s.copy
  let read := opened.copyWhile (· != 34) 63
  (read.out.drop opened.out.length, read.copyQuote)

/-- A blank or a colon. -/
def isSeparator (b : UInt8) : Bool := b == 32 || b == 58

/-- `Skip : and spaces`: they are copied. -/
def copySeparators (s : Sanitizer) : Sanitizer := s.copyWhile isSeparator s.src.length

/-- One turn of the loop at a quotation mark. -/
def readQuoted (s : Sanitizer) : Sanitizer :=
  if s.copy.remaining = 0 then s.copy
  else if jsonlIsSensitiveKey s.readKey.1 then s.readKey.2.copySeparators.maskValue
  else s.readKey.2

/-- The loop has come to its end. -/
def Stopped (s : Sanitizer) : Prop := s.src = [] ∨ s.remaining = 0

instance (s : Sanitizer) : Decidable s.Stopped := inferInstanceAs (Decidable (_ ∨ _))

/-- One turn of the loop. -/
def step (s : Sanitizer) : Sanitizer :=
  if s.Stopped then s else if s.src.head? = some 34 then s.readQuoted else s.copy

/-- In this turn, the buffer is full in front of a quotation mark that is taken to open a secret: the one behind a
sensitive key and its colon, or the closing one of the key, which there is no space for. -/
def opensFull (s : Sanitizer) : Prop :=
  ¬ s.Stopped ∧ s.src.head? = some 34 ∧ s.copy.remaining ≠ 0 ∧ jsonlIsSensitiveKey s.readKey.1 = true ∧
    s.readKey.2.copySeparators.src.head? = some 34 ∧ s.readKey.2.copySeparators.remaining = 0

instance (s : Sanitizer) : Decidable s.opensFull :=
  inferInstanceAs (Decidable (_ ∧ _ ∧ _ ∧ _ ∧ _ ∧ _))

end Sanitizer

/-- The variables after so many turns. -/
def sanitizeRun (jsonStr : List UInt8) (bufSize : UInt64) (n : ℕ) : Sanitizer :=
  Sanitizer.step^[n] ⟨cstr jsonStr, [], bufSize - 1⟩

/-- `jsonl_sanitize_json`: the bytes that are written from `out_buf` on, with the NUL; nothing is written for a
buffer of no size. No text needs more turns than it is long. -/
def jsonlSanitizeJson (jsonStr : List UInt8) (bufSize : UInt64) : Option (List UInt8) :=
  if bufSize = 0 then none
  else some ((sanitizeRun jsonStr bufSize (cstr jsonStr).length).out ++ [0])

/-! ### One turn -/

namespace Sanitizer

variable {s : Sanitizer}

theorem copy_of_cons {b : UInt8} {src : List UInt8} (h : s.src = b :: src) :
    s.copy = ⟨src, s.out ++ [b], s.remaining - 1⟩ := by
  rw [copy, h]

section Induction

variable {P : Sanitizer → Prop} (hcopy : ∀ s : Sanitizer, s.src ≠ [] → 0 < s.remaining → P s → P s.copy)
include hcopy

/-- What every copy under a test of the counter keeps is kept by the loops that copy. -/
theorem copyWhile_induction {p : UInt8 → Bool} {limit : ℕ} (h : P s) : P (s.copyWhile p limit) := by
  induction limit generalizing s with
  | zero => exact h
  | succ limit ih =>
    rw [copyWhile]
    split
    · next hgo =>
        have hne : s.src ≠ [] := by
          rintro heq
          rw [heq] at hgo
          exact absurd hgo.1 Bool.false_ne_true
        exact ih (hcopy s hne hgo.2 h)
    · exact h

/-- The same for the closing quotation mark. -/
theorem copyQuote_induction (h : P s) : P s.copyQuote := by
  rw [copyQuote]
  split
  · next hgo => exact hcopy s (by rintro heq; rw [heq] at hgo; cases hgo.1) hgo.2 h
  · exact h

/-- And for a quoted text with the separators behind it. -/
theorem readKey_induction (hgo : ¬ s.Stopped) (h : P s) : P s.readKey.2 ∧ P s.readKey.2.copySeparators := by
  have hopened : P s.copy := by
    rw [Stopped, not_or] at hgo
    exact hcopy s hgo.1 (UInt64.pos_iff_ne_zero.mpr hgo.2) h
  have hkey : P s.readKey.2 := copyQuote_induction hcopy (copyWhile_induction hcopy hopened)
  exact ⟨hkey, copyWhile_induction hcopy hkey⟩

/-- What is kept by copying and by masking is kept by a turn. -/
theorem step_induction (hmask : ∀ s : Sanitizer, P s → P s.maskValue) (h : P s) : P s.step := by
  rw [step]
  split
  · exact h
  · next hgo =>
      have hnot := hgo
      rw [Stopped, not_or] at hnot
      have hopened : P s.copy := hcopy s hnot.1 (UInt64.pos_iff_ne_zero.mpr hnot.2) h
      obtain ⟨hkey, hseparators⟩ := readKey_induction hcopy hgo h
      split
      · rw [readQuoted]
        split
        · exact hopened
        · split
          · exact hmask _ hseparators
          · exact hkey
      · exact hopened

end Induction

/-! ### The loop ends -/

theorem length_src_copy (hne : s.src ≠ []) : s.copy.src.length + 1 = s.src.length := by
  obtain ⟨b, src, hsrc⟩ := List.exists_cons_of_ne_nil hne
  rw [copy_of_cons hsrc, hsrc, List.length_cons]

/-- Masking does not go back. -/
theorem length_src_maskValue_le (s : Sanitizer) : s.maskValue.src.length ≤ s.src.length := by
  rw [maskValue]
  split
  · next hquote =>
      obtain ⟨src, hsrc⟩ := List.head?_eq_some_iff.mp hquote
      have hstars : s.copy.skipString.writeStars.src = src.dropWhile (· != 34) := by
        rw [writeStars, skipString, copy_of_cons hsrc]
        split <;> rfl
      have hdrop := (List.dropWhile_suffix (l := src) (· != 34)).length_le
      have hquoted : s.maskString.src.length ≤ s.copy.skipString.writeStars.src.length := by
        rw [maskString]
        refine copyQuote_induction (P := fun t => t.src.length ≤ s.copy.skipString.writeStars.src.length)
          (fun t hne _ hle => ?_) le_rfl
        have hcopy := length_src_copy hne
        omega
      rw [hstars] at hquoted
      rw [hsrc, List.length_cons]
      omega
  · exact (List.dropWhile_suffix _).length_le

/-- Every turn reads on. -/
theorem length_src_step_lt (hgo : ¬ s.Stopped) : s.step.src.length < s.src.length := by
  have hcopy : ∀ t : Sanitizer, t.src ≠ [] → 0 < t.remaining → t.src.length < s.src.length →
      t.copy.src.length < s.src.length := by
    intro t hne _ hlt
    have := length_src_copy hne
    omega
  have hnot := hgo
  rw [Stopped, not_or] at hnot
  have hopened : s.copy.src.length < s.src.length := by
    have := length_src_copy hnot.1
    omega
  have hkey : s.readKey.2.src.length < s.src.length := copyQuote_induction hcopy (copyWhile_induction hcopy hopened)
  have hseparators : s.readKey.2.copySeparators.src.length < s.src.length := copyWhile_induction hcopy hkey
  rw [step, if_neg hgo]
  split
  · rw [readQuoted]
    split
    · exact hopened
    · split
      · exact lt_of_le_of_lt (length_src_maskValue_le _) hseparators
      · exact hkey
  · exact hopened

/-- **The loop ends** after at most as many turns as the text is long. -/
theorem stopped_iterate {n : ℕ} (hn : s.src.length ≤ n) : (step^[n] s).Stopped := by
  induction n generalizing s with
  | zero => exact .inl (List.length_eq_zero_iff.mp (Nat.le_zero.mp hn))
  | succ n ih =>
    rw [Function.iterate_succ_apply]
    by_cases hgo : s.Stopped
    · have hstay : s.step = s := if_pos hgo
      rw [hstay, Function.iterate_fixed hstay]
      exact hgo
    · have hlt := length_src_step_lt hgo
      exact ih (by omega)

/-! ### What is written -/

/-- Nothing that was written is taken back. -/
theorem out_prefix_copy (s : Sanitizer) : s.out <+: s.copy.out := by
  rw [copy]
  split
  · exact List.prefix_rfl
  · exact List.prefix_append _ _

theorem out_prefix_maskValue (s : Sanitizer) : s.out <+: s.maskValue.out := by
  rw [maskValue]
  split
  · rw [maskString]
    refine copyQuote_induction (P := fun t => s.out <+: t.out)
      (fun t _ _ ht => ht.trans (out_prefix_copy t)) ?_
    rw [writeStars]
    split
    · exact (out_prefix_copy s).trans (List.prefix_append _ _)
    · exact out_prefix_copy s
  · exact List.prefix_append _ _

theorem out_prefix_step (s : Sanitizer) : s.out <+: s.step.out :=
  step_induction (P := fun t => s.out <+: t.out) (fun t _ _ ht => ht.trans (out_prefix_copy t))
    (fun t ht => ht.trans (out_prefix_maskValue t)) List.prefix_rfl

theorem out_prefix_iterate (s : Sanitizer) (n : ℕ) : s.out <+: (step^[n] s).out := by
  induction n generalizing s with
  | zero => exact List.prefix_rfl
  | succ n ih =>
    rw [Function.iterate_succ_apply]
    exact (out_prefix_step s).trans (ih s.step)

/-- There is no NUL in what was written nor in what is to be read. -/
def NoNul (s : Sanitizer) : Prop := 0 ∉ s.src ∧ 0 ∉ s.out

theorem noNul_copy (h : s.NoNul) : s.copy.NoNul := by
  rw [copy]
  split
  · exact h
  · next b src hsrc =>
      obtain ⟨hread, hout⟩ := h
      rw [hsrc, List.mem_cons, not_or] at hread
      exact ⟨hread.2, by simpa [hout] using hread.1⟩

theorem noNul_maskValue (h : s.NoNul) : s.maskValue.NoNul := by
  rw [maskValue]
  split
  · rw [maskString]
    refine copyQuote_induction (fun t _ _ ht => noNul_copy ht) ?_
    have hcopy := noNul_copy h
    have hskip : s.copy.skipString.NoNul := ⟨fun hmem => hcopy.1 ((List.dropWhile_suffix _).subset hmem), hcopy.2⟩
    rw [writeStars]
    split
    · exact ⟨hskip.1, by rw [List.mem_append, not_or]; exact ⟨hskip.2, by decide⟩⟩
    · exact hskip
  · refine ⟨fun hmem => h.1 ((List.dropWhile_suffix _).subset hmem), ?_⟩
    show 0 ∉ s.out ++ valueMask.take _
    rw [List.mem_append, not_or]
    exact ⟨h.2, fun hmem => absurd ((List.take_subset _ _) hmem) (by decide)⟩

theorem noNul_iterate (h : s.NoNul) (n : ℕ) : (step^[n] s).NoNul := by
  induction n generalizing s with
  | zero => exact h
  | succ n ih =>
    rw [Function.iterate_succ_apply]
    exact ih (step_induction (fun _ _ _ ht => noNul_copy ht) (fun _ ht => noNul_maskValue ht) h)

/-! ### The counter -/

/-- The counter is right: what was written, what is left and the NUL make up the buffer. -/
def Counted (bufSize : ℕ) (s : Sanitizer) : Prop := s.out.length + s.remaining.toNat + 1 = bufSize

variable {bufSize : ℕ}

theorem toNat_sub_of_le {a b : UInt64} (h : b ≤ a) : (a - b).toNat = a.toNat - b.toNat := UInt64.toNat_sub_of_le a b h

/-- Writing under a test keeps the counter right. -/
theorem counted_write {n : UInt64} (hle : n ≤ s.remaining) {src more : List UInt8}
    (hlength : more.length = n.toNat) (h : s.Counted bufSize) :
    Counted bufSize ⟨src, s.out ++ more, s.remaining - n⟩ := by
  have hnat := UInt64.le_iff_toNat_le.mp hle
  rw [Counted] at h ⊢
  rw [List.length_append, hlength, toNat_sub_of_le hle]
  omega

theorem counted_copy (hne : s.src ≠ []) (hpos : 0 < s.remaining) (h : s.Counted bufSize) : s.copy.Counted bufSize := by
  obtain ⟨b, src, hsrc⟩ := List.exists_cons_of_ne_nil hne
  rw [copy_of_cons hsrc]
  exact counted_write (n := 1) (by rw [UInt64.le_iff_toNat_le]; exact UInt64.lt_iff_toNat_lt.mp hpos) rfl h

theorem counted_maskOther (h : s.Counted bufSize) : s.maskOther.Counted bufSize := by
  have hlt := s.remaining.toNat_lt
  have hn : (UInt64.ofNat (min valueMask.length s.remaining.toNat)).toNat = min valueMask.length s.remaining.toNat := by
    rw [UInt64.toNat_ofNat']
    exact Nat.mod_eq_of_lt (by omega)
  refine counted_write (by rw [UInt64.le_iff_toNat_le, hn]; exact min_le_right _ _) ?_ h
  rw [hn, List.length_take]
  omega

/-- The test in front of the stars keeps the counter right. -/
theorem counted_maskString (hne : s.src ≠ []) (hpos : 0 < s.remaining) (h : s.Counted bufSize) :
    s.maskString.Counted bufSize := by
  rw [maskString]
  refine copyQuote_induction (fun t hne' hpos' ht => counted_copy hne' hpos' ht) ?_
  have hskip : s.copy.skipString.Counted bufSize := counted_copy hne hpos h
  rw [writeStars]
  split
  · next hthree => exact counted_write (n := 3) hthree rfl hskip
  · exact hskip

/-- With no space left, the opening quotation mark takes the place of the NUL, the counter wraps, and the stars are
behind the buffer. -/
theorem length_maskString_of_full (hquote : s.src.head? = some 34) (hfull : s.remaining = 0)
    (h : s.Counted bufSize) : bufSize < s.maskString.out.length := by
  obtain ⟨src, hsrc⟩ := List.head?_eq_some_iff.mp hquote
  have hstars : s.copy.skipString.writeStars.out = s.out ++ [34] ++ ascii "***" := by
    rw [writeStars, skipString, copy_of_cons hsrc, hfull]
    rfl
  have hstart : s.copy.skipString.writeStars.out <+: s.maskString.out :=
    copyQuote_induction (P := fun t => s.copy.skipString.writeStars.out <+: t.out)
      (fun t _ _ ht => ht.trans (out_prefix_copy t)) List.prefix_rfl
  have hlength := hstart.length_le
  rw [hstars, List.length_append, List.length_append, List.length_singleton] at hlength
  rw [Counted, hfull, UInt64.toNat_zero] at h
  have hthree : (ascii "***").length = 3 := length_ascii_ofList _
  omega

/-- The counter stays right in a turn in which the buffer is not full in front of a secret. -/
theorem counted_step (h : s.Counted bufSize) (hsafe : ¬ s.opensFull) : s.step.Counted bufSize := by
  have hcopy : ∀ t : Sanitizer, t.src ≠ [] → 0 < t.remaining → t.Counted bufSize → t.copy.Counted bufSize :=
    fun _ => counted_copy
  rw [step]
  split
  · exact h
  · next hgo =>
      have hnot := hgo
      rw [Stopped, not_or] at hnot
      have hopened := counted_copy hnot.1 (UInt64.pos_iff_ne_zero.mpr hnot.2) h
      obtain ⟨hkey, hseparators⟩ := readKey_induction hcopy hgo h
      split
      · next hquote =>
          rw [readQuoted]
          split
          · exact hopened
          · next hspace =>
              split
              · next hsensitive =>
                  rw [maskValue]
                  split
                  · next hvalue =>
                      have hroom : s.readKey.2.copySeparators.remaining ≠ 0 := fun hfull =>
                        hsafe ⟨hgo, hquote, hspace, hsensitive, hvalue, hfull⟩
                      refine counted_maskString ?_ (UInt64.pos_iff_ne_zero.mpr hroom) hseparators
                      rintro heq
                      rw [heq] at hvalue
                      cases hvalue
                  · exact counted_maskOther hseparators
              · exact hkey
      · exact hopened

/-- In a turn in which it is full there, the buffer is overrun. -/
theorem length_step_of_opensFull (h : s.Counted bufSize) (hfull : s.opensFull) : bufSize < s.step.out.length := by
  obtain ⟨hgo, hquote, hspace, hsensitive, hvalue, hempty⟩ := hfull
  have hseparators := (readKey_induction (P := Counted bufSize) (fun _ => counted_copy) hgo h).2
  rw [step, if_neg hgo, if_pos hquote, readQuoted, if_neg hspace, if_pos hsensitive, maskValue, if_pos hvalue]
  exact length_maskString_of_full hvalue hempty hseparators

/-- The counter is right as long as the buffer was never full in front of a secret. -/
theorem counted_iterate (h : s.Counted bufSize) {n : ℕ} (hsafe : ∀ k < n, ¬ (step^[k] s).opensFull) :
    (step^[n] s).Counted bufSize := by
  induction n with
  | zero => exact h
  | succ n ih =>
    rw [Function.iterate_succ_apply']
    exact counted_step (ih fun k hk => hsafe k (Nat.lt_succ_of_lt hk)) (hsafe n (Nat.lt_succ_self n))

/-- An overrun is not taken back. -/
theorem length_iterate_of_opensFull (h : s.Counted bufSize) {n turns : ℕ} (hn : n < turns)
    (hfull : (step^[n] s).opensFull) : bufSize < (step^[turns] s).out.length := by
  induction turns generalizing s n with
  | zero => exact absurd hn (Nat.not_lt_zero n)
  | succ turns ih =>
    rw [Function.iterate_succ_apply]
    by_cases hnow : s.opensFull
    · exact lt_of_lt_of_le (length_step_of_opensFull h hnow) (out_prefix_iterate s.step turns).length_le
    · cases n with
      | zero => exact absurd hfull hnow
      | succ n =>
        rw [Function.iterate_succ_apply] at hfull
        exact ih (counted_step h hnow) (Nat.lt_of_succ_lt_succ hn) hfull

end Sanitizer

open Sanitizer in
/-- **The sanitizer and its buffer.** For every text and every buffer of a size, the loop ends and what is written is
a string and its NUL; and that is within the buffer if and only if the buffer was in no turn full in front of a
quotation mark that is taken to open a secret. -/
theorem sanitizer_bounds_iff (jsonStr : List UInt8) (bufSize : UInt64) (hsize : 1 ≤ bufSize) :
    ∃ written, jsonlSanitizeJson jsonStr bufSize = some (written ++ [0]) ∧ 0 ∉ written ∧
      (sanitizeRun jsonStr bufSize (cstr jsonStr).length).Stopped ∧
      ((written ++ [0]).length ≤ bufSize.toNat ↔
        ∀ n < (cstr jsonStr).length, ¬ (sanitizeRun jsonStr bufSize n).opensFull) := by
  have hpos : bufSize ≠ 0 := by
    rintro rfl
    exact absurd hsize (by decide)
  have hcounted : Counted bufSize.toNat ⟨cstr jsonStr, [], bufSize - 1⟩ := by
    rw [Counted, toNat_sub_of_le hsize]
    have := UInt64.le_iff_toNat_le.mp hsize
    show 0 + (bufSize.toNat - 1) + 1 = bufSize.toNat
    rw [UInt64.toNat_one] at this
    omega
  have hclean : NoNul ⟨cstr jsonStr, [], bufSize - 1⟩ := ⟨zero_notMem_cstr jsonStr, List.not_mem_nil⟩
  refine ⟨_, if_neg hpos, (noNul_iterate hclean _).2, stopped_iterate le_rfl, ?_⟩
  rw [List.length_append, List.length_singleton]
  constructor
  · intro hfits n hn hopens
    have hover := length_iterate_of_opensFull hcounted hn hopens
    rw [sanitizeRun] at hfits
    omega
  · intro hsafe
    have hright := counted_iterate hcounted hsafe
    rw [Counted] at hright
    rw [sanitizeRun]
    omega

/-- A secret in a buffer that is large enough. -/
theorem sanitizer_bounds_short :
    jsonlSanitizeJson (ascii "\"key\":\"s\"") 32 = some (ascii "\"key\":\"***\"" ++ [0]) ∧
      (ascii "\"key\":\"***\"" ++ [0]).length ≤ 32 := by
  obtain ⟨written, hwritten, -, -, hiff⟩ := sanitizer_bounds_iff (ascii "\"key\":\"s\"") 32 (by decide)
  have hsame : jsonlSanitizeJson (ascii "\"key\":\"s\"") 32 = some (ascii "\"key\":\"***\"" ++ [0]) := by decide
  refine ⟨hsame, ?_⟩
  rw [← Option.some.inj (hwritten.symm.trans hsame)]
  exact hiff.mpr (by decide)

/-- Seven bytes are filled by the key and its colon and the NUL to come; twelve are written. -/
theorem sanitizer_bounds_overrun :
    jsonlSanitizeJson (ascii "\"key\":\"s\"") 7 = some (ascii "\"key\":\"***\"" ++ [0]) ∧
      ¬ (ascii "\"key\":\"***\"" ++ [0]).length ≤ 7 := by
  decide

end CGateway
