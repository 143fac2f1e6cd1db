import CGateway.Log.Sanitizer

/-! # The log sanitizer without a buffer

What `jsonl_sanitize_json` writes when the buffer never fills. The scanner carries nothing from one turn to the next
but the place in the text, so its output is the outputs of the turns in a row.

* `scanStep`, `scan` — one turn and the whole text;
* `jsonlSanitizeJson_eq_scan` — that is what is written to a buffer with room for it;
* `scan_append`, `scan_quoted`, `scan_secret`, `scanValue_string`, `scanValue_other` — the scanner on the parts of a
  text. -/

namespace CGateway

open Bytes CString Sanitizer

/-! ### The scanner -/

/-- The key that the text behind a quotation mark begins with. -/
def keyOf (src : List UInt8) : List UInt8 := (src.take 63).takeWhile (· != 34)

/-- A closing quotation mark, if it is next, and the text behind it. -/
def endQuote : List UInt8 → List UInt8 × List UInt8
  | [] => ([], [])
  | b :: src => if b = 34 then ([34], src) else ([], b :: src)

/-- What is written for the value of a sensitive key, and the text behind the value. -/
def scanValue (src : List UInt8) : List UInt8 × List UInt8 :=
  if src.head? = some 34 then
    (34 :: (ascii "***" ++ (endQuote (src.tail.dropWhile (· != 34))).1), (endQuote (src.tail.dropWhile (· != 34))).2)
  else (valueMask, src.dropWhile fun b => !isDelimiter b)

/-- What is written in one turn, and the text that is left. -/
def scanStep : List UInt8 → List UInt8 × List UInt8
  | [] => ([], [])
  | b :: src =>
      if b = 34 then
        let quoted := endQuote (src.drop (keyOf src).length)
        if jsonlIsSensitiveKey (keyOf src) then
          let value := scanValue (quoted.2.dropWhile isSeparator)
          (34 :: (keyOf src ++ (quoted.1 ++ (quoted.2.takeWhile isSeparator ++ value.1))), value.2)
        else (34 :: (keyOf src ++ quoted.1), quoted.2)
      else ([b], src)

variable {src : List UInt8}

/-- A turn at a quoted text that is not sensitive. -/
theorem scanStep_quoted (h : jsonlIsSensitiveKey (keyOf src) = false) :
    scanStep (34 :: src) = (34 :: (keyOf src ++ (endQuote (src.drop (keyOf src).length)).1),
      (endQuote (src.drop (keyOf src).length)).2) := by
  rw [scanStep, if_pos rfl]
  dsimp only
  rw [if_neg (by rw [h]; decide)]

/-- A turn at one that is. -/
theorem scanStep_secret (h : jsonlIsSensitiveKey (keyOf src) = true) :
    scanStep (34 :: src) =
      (34 :: (keyOf src ++ ((endQuote (src.drop (keyOf src).length)).1 ++
        ((endQuote (src.drop (keyOf src).length)).2.takeWhile isSeparator ++
          (scanValue ((endQuote (src.drop (keyOf src).length)).2.dropWhile isSeparator)).1))),
      (scanValue ((endQuote (src.drop (keyOf src).length)).2.dropWhile isSeparator)).2) := by
  rw [scanStep, if_pos rfl]
  dsimp only
  rw [if_pos h]

/-- A turn at another byte. -/
theorem scanStep_other {b : UInt8} (hb : b ≠ 34) (src : List UInt8) : scanStep (b :: src) = ([b], src) := if_neg hb

/-- The output of at most so many turns. -/
def scanFuel : ℕ → List UInt8 → List UInt8
  | 0, _ => []
  | fuel + 1, src => if src = [] then [] else (scanStep src).1 ++ scanFuel fuel (scanStep src).2

/-- What is written when the buffer never fills. -/
def scan (src : List UInt8) : List UInt8 := scanFuel src.length src

theorem length_endQuote_le (src : List UInt8) : (endQuote src).2.length ≤ src.length := by
  cases src with
  | nil => exact le_rfl
  | cons b src =>
    rw [endQuote]
    split
    · exact Nat.le_succ _
    · exact le_rfl

theorem length_scanValue_le (src : List UInt8) : (scanValue src).2.length ≤ src.length := by
  rw [scanValue]
  split
  · have hend := length_endQuote_le (src.tail.dropWhile (· != 34))
    have hdrop := (List.dropWhile_suffix (l := src.tail) (· != 34)).length_le
    rw [List.length_tail] at hdrop
    dsimp only
    omega
  · exact (List.dropWhile_suffix _).length_le

/-- A turn reads on. -/
theorem length_scanStep_lt (hne : src ≠ []) : (scanStep src).2.length < src.length := by
  obtain ⟨b, src, rfl⟩ := List.exists_cons_of_ne_nil hne
  have hend := length_endQuote_le (src.drop (keyOf src).length)
  rw [List.length_drop] at hend
  rw [scanStep, List.length_cons]
  split
  · split
    · have hvalue := length_scanValue_le ((endQuote (src.drop (keyOf src).length)).2.dropWhile isSeparator)
      have hdrop := (List.dropWhile_suffix (l := (endQuote (src.drop (keyOf src).length)).2) isSeparator).length_le
      dsimp only
      omega
    · dsimp only
      omega
  · exact Nat.lt_succ_self _

/-- And it writes something. -/
theorem length_scanStep_pos (hne : src ≠ []) : 0 < (scanStep src).1.length := by
  obtain ⟨b, src, rfl⟩ := List.exists_cons_of_ne_nil hne
  rw [scanStep]
  split
  · dsimp only
    split <;> exact Nat.succ_pos _
  · exact Nat.one_pos

/-- More turns than the text is long make no difference. -/
theorem scanFuel_eq_scan {fuel : ℕ} (h : src.length ≤ fuel) : scanFuel fuel src = scan src := by
  suffices key : ∀ (a b : ℕ) (src : List UInt8), src.length ≤ a → src.length ≤ b → scanFuel a src = scanFuel b src from
    key _ _ src h le_rfl
  intro a
  induction a with
  | zero =>
    intro b src ha _
    obtain rfl := List.length_eq_zero_iff.mp (Nat.le_zero.mp ha)
    cases b <;> rfl
  | succ a ih =>
    intro b src ha hb
    by_cases hne : src = []
    · subst hne
      cases b <;> rfl
    · have hlt := length_scanStep_lt hne
      obtain ⟨b, rfl⟩ := Nat.exists_eq_succ_of_ne_zero (n := b) (by omega)
      rw [scanFuel, scanFuel, if_neg hne, if_neg hne, ih b _ (by omega) (by omega)]

@[simp] theorem scan_nil : scan [] = [] := rfl

/-- The turns in a row. -/
theorem scan_eq (hne : src ≠ []) : scan src = (scanStep src).1 ++ scan (scanStep src).2 := by
  have hlt := length_scanStep_lt hne
  obtain ⟨n, hn⟩ := Nat.exists_eq_succ_of_ne_zero (List.length_pos_iff.mpr hne).ne'
  rw [scan, hn, scanFuel, if_neg hne, scanFuel_eq_scan (by omega)]

/-! ### With room in the buffer -/

namespace Sanitizer

/-- The state when these bytes were written and this text is left. -/
def emit (s : Sanitizer) (written src : List UInt8) : Sanitizer :=
  ⟨src, s.out ++ written, s.remaining - UInt64.ofNat written.length⟩

variable {s : Sanitizer}

@[simp] theorem emit_src (s : Sanitizer) (written src : List UInt8) : (s.emit written src).src = src := rfl

@[simp] theorem emit_out (s : Sanitizer) (written src : List UInt8) : (s.emit written src).out = s.out ++ written := rfl

variable {src : List UInt8}

theorem emit_nil (h : s.src = src) : s.emit [] src = s := by
  ext1
  · exact h.symm
  · exact List.append_nil _
  · exact UInt64.sub_zero _

theorem emit_emit (s : Sanitizer) (written more src src' : List UInt8) :
    (s.emit written src).emit more src' = s.emit (written ++ more) src' := by
  ext1
  · rfl
  · exact List.append_assoc ..
  · show s.remaining - UInt64.ofNat written.length - UInt64.ofNat more.length = _ - UInt64.ofNat _
    rw [List.length_append, UInt64.ofNat_add]
    grind

/-- The space that is left. -/
theorem toNat_emit (s : Sanitizer) (written : List UInt8) (h : written.length ≤ s.remaining.toNat) (src : List UInt8) :
    (s.emit written src).remaining.toNat = s.remaining.toNat - written.length := by
  have hlt := s.remaining.toNat_lt
  have hn : (UInt64.ofNat written.length).toNat = written.length := by
    rw [UInt64.toNat_ofNat']
    exact Nat.mod_eq_of_lt (by omega)
  show (s.remaining - UInt64.ofNat written.length).toNat = _
  rw [toNat_sub_of_le (by rw [UInt64.le_iff_toNat_le, hn]; exact h), hn]

theorem pos_iff : 0 < s.remaining ↔ 0 < s.remaining.toNat := by
  rw [UInt64.lt_iff_toNat_lt, UInt64.toNat_zero]

theorem copy_eq_emit {b : UInt8} (h : s.src = b :: src) : s.copy = s.emit [b] src := copy_of_cons h

/-- A loop that copies copies all it is meant to. -/
theorem copyWhile_eq_emit {p : UInt8 → Bool} {limit : ℕ}
    (hroom : ((s.src.take limit).takeWhile p).length ≤ s.remaining.toNat) :
    s.copyWhile p limit =
      s.emit ((s.src.take limit).takeWhile p) (s.src.drop ((s.src.take limit).takeWhile p).length) := by
  induction limit generalizing s with
  | zero =>
    rw [List.take_zero, List.takeWhile_nil, List.length_nil, List.drop_zero, emit_nil rfl]
    rfl
  | succ limit ih =>
    rw [copyWhile]
    cases hsrc : s.src with
    | nil =>
      rw [if_neg (fun h => Bool.false_ne_true h.1), List.take_nil, List.takeWhile_nil, List.drop_nil, emit_nil hsrc]
    | cons b src =>
      rw [hsrc, List.take_succ_cons, List.takeWhile_cons] at hroom
      rw [List.take_succ_cons, List.takeWhile_cons]
      by_cases hb : p b = true
      · rw [if_pos hb, List.length_cons] at hroom
        have hpos : 0 < s.remaining := pos_iff.mpr (by omega)
        have hleft := toNat_emit s [b] (by rw [List.length_singleton]; omega) src
        rw [List.length_singleton] at hleft
        rw [if_pos ⟨hb, hpos⟩, if_pos hb, copy_eq_emit hsrc, ih (by rw [emit_src]; omega), emit_src, emit_emit,
          List.singleton_append, List.length_cons, List.drop_succ_cons]
      · rw [if_neg (fun h => hb h.1), if_neg hb, List.length_nil, List.drop_zero, emit_nil hsrc]

/-- A closing quotation mark is copied. -/
theorem copyQuote_eq_emit (hroom : (endQuote s.src).1.length ≤ s.remaining.toNat) :
    s.copyQuote = s.emit (endQuote s.src).1 (endQuote s.src).2 := by
  rw [copyQuote]
  cases hsrc : s.src with
  | nil =>
    rw [if_neg (fun h => by cases h.1), endQuote, emit_nil hsrc]
  | cons b src =>
    rw [hsrc, endQuote] at hroom
    rw [endQuote]
    by_cases hb : b = 34
    · rw [if_pos hb] at hroom ⊢
      rw [if_pos ⟨by rw [List.head?_cons, hb], pos_iff.mpr hroom⟩, copy_eq_emit hsrc, hb]
    · rw [if_neg hb, if_neg (fun h => hb (Option.some.inj h.1)), emit_nil hsrc]

/-- A quoted text is copied. -/
theorem readKey_eq_emit (hsrc : s.src = 34 :: src)
    (hroom : (34 :: (keyOf src ++ (endQuote (src.drop (keyOf src).length)).1)).length ≤ s.remaining.toNat) :
    s.readKey = (keyOf src, s.emit (34 :: (keyOf src ++ (endQuote (src.drop (keyOf src).length)).1))
      (endQuote (src.drop (keyOf src).length)).2) := by
  rw [List.length_cons, List.length_append] at hroom
  have hopened := toNat_emit s [34] (by rw [List.length_singleton]; omega) src
  rw [List.length_singleton] at hopened
  have hread : (s.emit [34] src).copyWhile (· != 34) 63 = s.emit (34 :: keyOf src) (src.drop (keyOf src).length) := by
    rw [copyWhile_eq_emit (by rw [emit_src, hopened, ← keyOf]; omega), emit_src, ← keyOf, emit_emit,
      List.singleton_append]
  have hleft := toNat_emit s (34 :: keyOf src) (by rw [List.length_cons]; omega) (src.drop (keyOf src).length)
  rw [List.length_cons] at hleft
  have hquote : (s.emit (34 :: keyOf src) (src.drop (keyOf src).length)).copyQuote =
      s.emit (34 :: (keyOf src ++ (endQuote (src.drop (keyOf src).length)).1))
        (endQuote (src.drop (keyOf src).length)).2 := by
    rw [copyQuote_eq_emit (by rw [emit_src, hleft]; omega), emit_src, emit_emit, List.cons_append]
  rw [readKey, copy_eq_emit hsrc, hread, hquote, emit_out, emit_out, List.length_append, List.drop_append,
    List.drop_eq_nil_of_le (by omega)]
  simp

/-- The separators are copied. -/
theorem copySeparators_eq_emit (hroom : (s.src.takeWhile isSeparator).length ≤ s.remaining.toNat) :
    s.copySeparators = s.emit (s.src.takeWhile isSeparator) (s.src.dropWhile isSeparator) := by
  have hdrop : s.src.drop (s.src.takeWhile isSeparator).length = s.src.dropWhile isSeparator := by
    have hsplit := List.takeWhile_append_dropWhile (p := isSeparator) (l := s.src)
    calc s.src.drop (s.src.takeWhile isSeparator).length
        = (s.src.takeWhile isSeparator ++ s.src.dropWhile isSeparator).drop
            (s.src.takeWhile isSeparator).length := by rw [hsplit]
      _ = s.src.dropWhile isSeparator := List.drop_left ..
  rw [copySeparators, copyWhile_eq_emit (by rw [List.take_length]; exact hroom), List.take_length, hdrop]

/-- A value is masked. -/
theorem maskValue_eq_emit (hroom : (scanValue s.src).1.length ≤ s.remaining.toNat) :
    s.maskValue = s.emit (scanValue s.src).1 (scanValue s.src).2 := by
  rw [maskValue]
  by_cases hquote : s.src.head? = some 34
  · obtain ⟨src, hsrc⟩ := List.head?_eq_some_iff.mp hquote
    have hthree : (ascii "***").length = 3 := length_ascii_ofList _
    have hscan : scanValue s.src = (34 :: (ascii "***" ++ (endQuote (src.dropWhile (· != 34))).1),
        (endQuote (src.dropWhile (· != 34))).2) := by
      rw [scanValue, if_pos hquote, hsrc, List.tail_cons]
    rw [hscan, List.length_cons, List.length_append, hthree] at hroom
    rw [hscan, if_pos hquote, maskString, copy_eq_emit hsrc]
    have hopened := toNat_emit s [34] (by rw [List.length_singleton]; omega) src
    rw [List.length_singleton] at hopened
    have hstars : (s.emit [34] src).skipString.writeStars = s.emit (34 :: ascii "***") (src.dropWhile (· != 34)) := by
      have hspace : 3 ≤ (s.emit [34] src).skipString.remaining := by
        rw [UInt64.le_iff_toNat_le]
        show 3 ≤ (s.emit [34] src).remaining.toNat
        omega
      rw [writeStars, if_pos hspace]
      exact emit_emit s [34] (ascii "***") src (src.dropWhile (· != 34))
    have hleft := toNat_emit s (34 :: ascii "***") (by rw [List.length_cons, hthree]; omega)
      (src.dropWhile (· != 34))
    rw [List.length_cons, hthree] at hleft
    rw [hstars, copyQuote_eq_emit (by rw [emit_src, hleft]; omega), emit_src, emit_emit, List.cons_append]
  · rw [scanValue, if_neg hquote] at hroom ⊢
    have hall : min valueMask.length s.remaining.toNat = valueMask.length := min_eq_left hroom
    rw [if_neg hquote, maskOther]
    dsimp only
    rw [hall, List.take_length]
    rfl

/-- A turn that writes no more than the quotation mark has read no more. -/
theorem scanStep_of_length_le_one (hone : (scanStep (34 :: src)).1.length ≤ 1) :
    scanStep (34 :: src) = ([34], src) := by
  have hkey : keyOf src = [] := by
    cases hsensitive : jsonlIsSensitiveKey (keyOf src) with
    | true =>
      rw [scanStep_secret hsensitive, List.length_cons, List.length_append] at hone
      exact List.length_eq_zero_iff.mp (by omega)
    | false =>
      rw [scanStep_quoted hsensitive, List.length_cons, List.length_append] at hone
      exact List.length_eq_zero_iff.mp (by omega)
  have hscan : scanStep (34 :: src) = (34 :: (endQuote src).1, (endQuote src).2) := by
    rw [scanStep_quoted (by rw [hkey]; decide), hkey, List.length_nil, List.drop_zero, List.nil_append]
  have hend : endQuote src = ([], src) := by
    rw [hscan, List.length_cons] at hone
    cases src with
    | nil => rfl
    | cons b src =>
      rw [endQuote] at hone ⊢
      split
      · next hb => rw [if_pos hb, List.length_singleton] at hone; exact absurd hone (by decide)
      · rfl
  rw [hscan, hend]

/-- A turn at a quoted text. -/
theorem readQuoted_eq_emit (hsrc : s.src = 34 :: src)
    (hroom : (scanStep (34 :: src)).1.length ≤ s.remaining.toNat) :
    s.readQuoted = s.emit (scanStep (34 :: src)).1 (scanStep (34 :: src)).2 := by
  have hopened : s.copy = s.emit [34] src := copy_eq_emit hsrc
  rw [readQuoted]
  by_cases hfull : s.copy.remaining = 0
  · -- The buffer is full: there was room for the quotation mark alone, so there is nothing else to write.
    have hone : (scanStep (34 :: src)).1.length ≤ 1 := by
      by_contra hmore
      have hleft := toNat_emit s [34] (by rw [List.length_singleton]; omega) src
      rw [← hopened, hfull, List.length_singleton, UInt64.toNat_zero] at hleft
      omega
    rw [if_pos hfull, hopened, scanStep_of_length_le_one hone]
  · rw [if_neg hfull]
    cases hsensitive : jsonlIsSensitiveKey (keyOf src) with
    | false =>
      rw [scanStep_quoted hsensitive] at hroom ⊢
      rw [readKey_eq_emit hsrc hroom]
      dsimp only
      rw [hsensitive, if_neg Bool.false_ne_true]
    | true =>
      rw [scanStep_secret hsensitive] at hroom ⊢
      simp only [List.length_cons, List.length_append] at hroom
      have hkey := readKey_eq_emit hsrc (by simp only [List.length_cons, List.length_append]; omega)
      have hleft := toNat_emit s (34 :: (keyOf src ++ (endQuote (src.drop (keyOf src).length)).1))
        (by simp only [List.length_cons, List.length_append]; omega) (endQuote (src.drop (keyOf src).length)).2
      simp only [List.length_cons, List.length_append] at hleft
      have hseparators := toNat_emit s (34 :: (keyOf src ++ (endQuote (src.drop (keyOf src).length)).1) ++
          (endQuote (src.drop (keyOf src).length)).2.takeWhile isSeparator)
        (by simp only [List.length_cons, List.length_append]; omega)
        ((endQuote (src.drop (keyOf src).length)).2.dropWhile isSeparator)
      simp only [List.length_cons, List.length_append] at hseparators
      rw [hkey]
      dsimp only
      rw [hsensitive, if_pos rfl, copySeparators_eq_emit (by rw [emit_src]; omega), emit_src, emit_emit,
        maskValue_eq_emit (by rw [emit_src]; omega), emit_src, emit_emit]
      simp only [List.cons_append, List.append_assoc]

/-- **A turn with room for what it writes.** -/
theorem step_eq_emit (hne : s.src ≠ []) (hroom : (scanStep s.src).1.length ≤ s.remaining.toNat) :
    s.step = s.emit (scanStep s.src).1 (scanStep s.src).2 := by
  obtain ⟨b, src, hsrc⟩ := List.exists_cons_of_ne_nil hne
  have hgo : ¬ s.Stopped := by
    rintro (hempty | hfull)
    · exact hne hempty
    · have hwrites := length_scanStep_pos hne
      rw [hfull, UInt64.toNat_zero] at hroom
      omega
  rw [step, if_neg hgo]
  rw [hsrc] at hroom ⊢
  by_cases hb : b = 34
  · subst hb
    rw [List.head?_cons, if_pos rfl, readQuoted_eq_emit hsrc hroom]
  · rw [List.head?_cons, if_neg (fun h => hb (Option.some.inj h)), scanStep_other hb, copy_eq_emit hsrc]

/-- The turns with room for what they write. -/
theorem iterate_step_eq_emit {n : ℕ} (hn : s.src.length ≤ n) (hroom : (scan s.src).length ≤ s.remaining.toNat) :
    step^[n] s = s.emit (scan s.src) [] := by
  induction n generalizing s with
  | zero =>
    have hempty := List.length_eq_zero_iff.mp (Nat.le_zero.mp hn)
    rw [hempty, scan_nil, emit_nil hempty]
    rfl
  | succ n ih =>
    by_cases hempty : s.src = []
    · have hstay : s.step = s := if_pos (.inl hempty)
      rw [Function.iterate_fixed hstay, hempty, scan_nil, emit_nil hempty]
    · have hlt := length_scanStep_lt hempty
      rw [scan_eq hempty, List.length_append] at hroom
      have hstep := step_eq_emit hempty (by omega)
      have hleft := toNat_emit s (scanStep s.src).1 (by omega) (scanStep s.src).2
      rw [Function.iterate_succ_apply, hstep, ih (by rw [emit_src]; omega) (by rw [emit_src]; omega), emit_src,
        emit_emit, ← scan_eq hempty]

end Sanitizer

/-- **With room for it, the output of the scanner is written.** -/
theorem jsonlSanitizeJson_eq_scan {jsonStr : List UInt8} {bufSize : UInt64}
    (hroom : (scan (cstr jsonStr)).length < bufSize.toNat) :
    jsonlSanitizeJson jsonStr bufSize = some (scan (cstr jsonStr) ++ [0]) := by
  have hsize : 1 ≤ bufSize := by
    rw [UInt64.le_iff_toNat_le, UInt64.toNat_one]
    omega
  have hpos : bufSize ≠ 0 := by
    rintro rfl
    exact absurd hsize (by decide)
  have hleft : (bufSize - 1).toNat = bufSize.toNat - 1 := toNat_sub_of_le hsize
  have hrun : sanitizeRun jsonStr bufSize (cstr jsonStr).length =
      emit ⟨cstr jsonStr, [], bufSize - 1⟩ (scan (cstr jsonStr)) [] :=
    iterate_step_eq_emit le_rfl (by show (scan (cstr jsonStr)).length ≤ (bufSize - 1).toNat; omega)
  rw [jsonlSanitizeJson, if_neg hpos, hrun]
  rfl

/-! ### The parts of a text -/

/-- A text without quotation marks is copied. -/
theorem scan_append {front : List UInt8} (h : 34 ∉ front) (rest : List UInt8) :
    scan (front ++ rest) = front ++ scan rest := by
  induction front with
  | nil => rfl
  | cons b front ih =>
    rw [List.mem_cons, not_or] at h
    rw [List.cons_append, scan_eq (List.cons_ne_nil _ _), scanStep_other (Ne.symm h.1), ih h.2]
    rfl

section Quoted

variable {body : List UInt8} (hquote : 34 ∉ body) (hlength : body.length ≤ 63) (rest : List UInt8)

include hquote hlength

/-- A quoted text of at most 63 bytes without a quotation mark is read whole. -/
theorem keyOf_quoted : keyOf (body ++ 34 :: rest) = body := by
  rw [keyOf, List.take_append, List.take_of_length_le hlength, List.takeWhile_append_of_pos]
  · cases hn : 63 - body.length with
    | zero => rw [List.take_zero, List.takeWhile_nil, List.append_nil]
    | succ n => rw [List.take_succ_cons, List.takeWhile_cons_of_neg (by decide), List.append_nil]
  · intro b hb
    have hne : b ≠ 34 := fun h => hquote (h ▸ hb)
    simpa using hne

theorem endQuote_quoted : endQuote ((body ++ 34 :: rest).drop (keyOf (body ++ 34 :: rest)).length) = ([34], rest) := by
  rw [keyOf_quoted hquote hlength, List.drop_left]
  rfl

/-- A quoted text that is not sensitive is copied. -/
theorem scan_quoted (hplain : jsonlIsSensitiveKey body = false) :
    scan (34 :: (body ++ 34 :: rest)) = 34 :: (body ++ 34 :: scan rest) := by
  have hkey := keyOf_quoted hquote hlength rest
  rw [scan_eq (List.cons_ne_nil _ _), scanStep_quoted (by rw [hkey]; exact hplain), endQuote_quoted hquote hlength,
    hkey]
  simp

/-- Behind a sensitive one, the separators are copied and what follows is masked. -/
theorem scan_secret (hsensitive : jsonlIsSensitiveKey body = true) :
    scan (34 :: (body ++ 34 :: rest)) =
      34 :: (body ++ 34 :: (rest.takeWhile isSeparator ++ ((scanValue (rest.dropWhile isSeparator)).1 ++
        scan (scanValue (rest.dropWhile isSeparator)).2))) := by
  have hkey := keyOf_quoted hquote hlength rest
  rw [scan_eq (List.cons_ne_nil _ _), scanStep_secret (by rw [hkey]; exact hsensitive),
    endQuote_quoted hquote hlength, hkey]
  simp

end Quoted

/-- Behind separators, a string without a quotation mark in it is masked. -/
theorem scanValue_string {body : List UInt8} (hquote : 34 ∉ body) (rest : List UInt8) :
    scanValue (34 :: (body ++ 34 :: rest)) = (valueMask, rest) := by
  have hdrop : (body ++ 34 :: rest).dropWhile (· != 34) = 34 :: rest := by
    rw [List.dropWhile_append_of_pos, List.dropWhile_cons_of_neg (by decide)]
    intro b hb
    have hne : b ≠ 34 := fun h => hquote (h ▸ hb)
    simpa using hne
  rw [scanValue, List.head?_cons, if_pos rfl, List.tail_cons, hdrop]
  rfl

/-- Another value is masked up to the delimiter behind it. -/
theorem scanValue_other {value : List UInt8} (hvalue : ∀ b ∈ value, isDelimiter b = false ∧ b ≠ 34)
    {d : UInt8} (hd : isDelimiter d = true) (rest : List UInt8) :
    scanValue (value ++ d :: rest) = (valueMask, d :: rest) := by
  have hhead : (value ++ d :: rest).head? ≠ some 34 := by
    cases value with
    | nil =>
      intro h
      rw [Option.some.inj h] at hd
      exact absurd hd (by decide)
    | cons b value =>
      intro h
      exact (hvalue b List.mem_cons_self).2 (Option.some.inj h)
  rw [scanValue, if_neg hhead, List.dropWhile_append_of_pos, List.dropWhile_cons_of_neg (by simpa using hd)]
  intro b hb
  rw [(hvalue b hb).1]
  rfl

end CGateway
