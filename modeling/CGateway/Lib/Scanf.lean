import CGateway.Lib.Hex

/-! # Reading with `sscanf`

Formats of texts with a maximal width, hexadecimal and decimal numbers and single bytes. Texts and numbers may stand
behind any blanks, a text is whatever is no blank, and a number may have a sign; a byte must stand right where it is
expected. The values that were converted before the first failure are the result, so their number is what `sscanf`
returns.

A bare `0x` is no number by the C standard, while some libraries read it as 0: `bare` says which kind is at hand.

* `Scanf.Directive`, `Scanf.sscanf` — formats and what they convert;
* `Scanf.scanText_eq_some_iff` — what a text directive accepts;
* `Scanf.sscanf_text_byte_iff` — a text that is closed by a byte has its full width;
* `Scanf.scanHex_append`, `Scanf.sscanf_hex_byte` — a number of digits, up to a byte that is none;
* `Scanf.isSome_scanHex_two`, `Scanf.scanHex_two` — what `%2x` makes of two bytes. -/

namespace Scanf

open CString Hex

/-- A directive of a format. -/
inductive Directive where
  /-- `%Ns`. -/
  | text (width : ℕ)
  /-- `%Nx` or `%lx`. -/
  | hex (width : Option ℕ)
  /-- `%d`. -/
  | decimal
  /-- A byte that is no blank. -/
  | byte (b : UInt8)

/-- A converted value: the bytes of a text, an `unsigned long`, an `int`. -/
inductive Conversion where
  | text (item : List UInt8)
  | hex (value : UInt64)
  | decimal (value : ℤ)
  deriving DecidableEq

/-- `%Ns`: the item and what is left. -/
def scanText (width : ℕ) (s : List UInt8) : Option (List UInt8 × List UInt8) :=
  let s := s.dropWhile isSpace
  let item := (s.take width).takeWhile fun b => !isSpace b
  if item = [] then none else some (item, s.drop item.length)

/-- A sign in front of a number. -/
def splitSign : List UInt8 → Bool × List UInt8
  | 45 :: s => (true, s)
  | 43 :: s => (false, s)
  | s => (false, s)

/-- The number at the start, and its length. -/
def plainHex (s : List UInt8) : Option (ℕ × ℕ) :=
  let item := s.takeWhile isHexDigit
  if item = [] then none else some (number item, item.length)

/-- The number at the start behind an optional `0x`, and the length of both. -/
def prefixedHex (bare : Bool) : List UInt8 → Option (ℕ × ℕ)
  | 48 :: x :: s =>
      if x = 120 ∨ x = 88 then
        match plainHex s with
        | some item => some (item.1, item.2 + 2)
        | none => if bare then some (0, 2) else none
      else plainHex (48 :: x :: s)
  | s => plainHex s

/-- The value of `strtoul`: it saturates, and a minus sign negates. -/
def unsignedLong (negative : Bool) (n : ℕ) : UInt64 :=
  if 2 ^ 64 ≤ n then UInt64.ofNat (2 ^ 64 - 1)
  else if negative then -UInt64.ofNat n
  else UInt64.ofNat n

/-- `%Nx` or `%lx`. -/
def scanHex (bare : Bool) (width : Option ℕ) (s : List UInt8) : Option (UInt64 × List UInt8) :=
  let s := s.dropWhile isSpace
  -- a width counts the sign and the `0x`, but not the blanks
  let window := match width with
    | none => s
    | some w => s.take w
  let signed := splitSign window
  (prefixedHex bare signed.2).map fun item =>
    (unsignedLong signed.1 item.1, s.drop (window.length - signed.2.length + item.2))

/-- `%d`: `strtol` with its saturation, cut to an `int`. -/
def scanDecimal (s : List UInt8) : Option (ℤ × List UInt8) :=
  let s := s.dropWhile isSpace
  let signed := splitSign s
  let item := signed.2.takeWhile isDigit
  if item = [] then none
  else
    let value : ℤ := if signed.1 then -(leadingNat signed.2 : ℤ) else leadingNat signed.2
    -- the bounds are those of `long`, the value is stored as an `int`
    some ((max (-2 ^ 63) (min (2 ^ 63 - 1) value)).bmod (2 ^ 32), signed.2.drop item.length)

/-- `sscanf`: the values converted before the first failure. -/
def sscanf (bare : Bool) : List Directive → List UInt8 → List Conversion
  | [], _ => []
  | .text width :: format, s =>
      match scanText width s with
      | none => []
      | some (item, rest) => .text item :: sscanf bare format rest
  | .hex width :: format, s =>
      match scanHex bare width s with
      | none => []
      | some (value, rest) => .hex value :: sscanf bare format rest
  | .decimal :: format, s =>
      match scanDecimal s with
      | none => []
      | some (value, rest) => .decimal value :: sscanf bare format rest
  | .byte b :: format, s =>
      match s with
      | [] => []
      | c :: rest => if c = b then sscanf bare format rest else []

/-! ### Texts -/

section Texts

variable {width : ℕ} {s item rest blanks : List UInt8}

/-- Blanks in front of anything else are skipped. -/
theorem dropWhile_blanks (hblanks : ∀ b ∈ blanks, isSpace b = true)
    (hs : ∀ b ∈ s.head?, isSpace b = false) : (blanks ++ s).dropWhile isSpace = s := by
  rw [List.dropWhile_append_of_pos hblanks]
  cases s with
  | nil => rfl
  | cons b s => exact List.dropWhile_cons_of_neg (by rw [hs b rfl]; decide)

/-- A text that is not too long is taken up to the next blank. -/
theorem takeWhile_take_append (hitem : ∀ b ∈ item, isSpace b = false) (hlength : item.length ≤ width)
    (hend : item.length = width ∨ ∀ b ∈ rest.head?, isSpace b = true) :
    ((item ++ rest).take width).takeWhile (fun b => !isSpace b) = item := by
  have hpos : ∀ b ∈ item, (!isSpace b) = true := by
    intro b hb
    rw [hitem b hb]
    rfl
  rw [List.take_append, List.take_of_length_le hlength, List.takeWhile_append_of_pos hpos]
  rcases hend with hfull | hblank
  · rw [hfull, Nat.sub_self, List.take_zero, List.takeWhile_nil, List.append_nil]
  · cases rest with
    | nil => rw [List.take_nil, List.takeWhile_nil, List.append_nil]
    | cons c rest =>
      cases width - item.length with
      | zero => rw [List.take_zero, List.takeWhile_nil, List.append_nil]
      | succ n =>
        rw [List.take_succ_cons, List.takeWhile_cons_of_neg (by rw [hblank c rfl]; decide), List.append_nil]

/-- **What a text directive accepts**: behind blanks, as many bytes as there are up to the next blank, but no more
than the width. -/
theorem scanText_eq_some_iff : scanText width s = some (item, rest) ↔
    ∃ blanks, s = blanks ++ (item ++ rest) ∧ (∀ b ∈ blanks, isSpace b = true) ∧ item ≠ [] ∧
      (∀ b ∈ item, isSpace b = false) ∧ item.length ≤ width ∧
      (item.length = width ∨ ∀ b ∈ rest.head?, isSpace b = true) := by
  constructor
  · intro h
    rw [scanText] at h
    split at h
    · cases h
    · next hsome =>
        obtain ⟨hitem, hrest⟩ := Prod.mk.inj (Option.some.inj h)
        rw [hitem] at hsome hrest
        have hpre : item <+: s.dropWhile isSpace := hitem ▸ (List.takeWhile_prefix _).trans (List.take_prefix _ _)
        have hsplit : s.dropWhile isSpace = item ++ rest := by
          rw [← hrest]
          exact List.prefix_iff_eq_append.mp hpre |>.symm
        have hlength : item.length ≤ width := by
          rw [← hitem]
          exact (List.takeWhile_sublist _).length_le.trans (List.length_take_le _ _)
        have hfree : ∀ b ∈ item, (!isSpace b) = true := by
          rw [← hitem]
          exact fun b hb => @List.mem_takeWhile_imp _ (fun b => !isSpace b) _ _ hb
        refine ⟨s.takeWhile isSpace, ?_, fun b hb => List.mem_takeWhile_imp hb, hsome, ?_, hlength, ?_⟩
        · rw [← hsplit, List.takeWhile_append_dropWhile]
        · intro b hb
          simpa using hfree b hb
        · -- a byte behind the item that is no blank would have been taken too
          rcases hlength.eq_or_lt with hfull | hshort
          · exact .inl hfull
          · refine .inr fun c hc => ?_
            obtain ⟨rest', rfl⟩ := List.head?_eq_some_iff.mp hc
            obtain ⟨n, hn⟩ : ∃ n, width - item.length = n + 1 := ⟨width - item.length - 1, by omega⟩
            rw [hsplit, List.take_append, List.take_of_length_le hlength, List.takeWhile_append_of_pos hfree, hn,
              List.take_succ_cons, List.append_right_eq_self, List.takeWhile_cons] at hitem
            by_contra hne
            rw [if_pos (by simpa using hne)] at hitem
            cases hitem
  · rintro ⟨blanks, rfl, hblanks, hsome, hfree, hlength, hend⟩
    obtain ⟨c, item', rfl⟩ := List.exists_cons_of_ne_nil hsome
    -- the first byte of the item ends the blanks
    have hskip : (blanks ++ ((c :: item') ++ rest)).dropWhile isSpace = (c :: item') ++ rest := by
      refine dropWhile_blanks hblanks fun b hb => ?_
      obtain rfl : c = b := Option.some.inj hb
      exact hfree c List.mem_cons_self
    rw [scanText, hskip, takeWhile_take_append hfree hlength hend, if_neg hsome, List.drop_left]

/-- **A text that is closed by a byte** has its full width: short of it only a blank or the end stops the text. -/
theorem sscanf_text_byte_iff {bare : Bool} {c : UInt8} (hc : isSpace c = false) (hwidth : 0 < width)
    {format : List Directive} {converted : List Conversion} (hsome : converted ≠ []) :
    sscanf bare (.text width :: .byte c :: format) s = .text item :: converted ↔
      ∃ blanks rest, s = blanks ++ (item ++ c :: rest) ∧ (∀ b ∈ blanks, isSpace b = true) ∧
        (∀ b ∈ item, isSpace b = false) ∧ item.length = width ∧ sscanf bare format rest = converted := by
  constructor
  · intro h
    rw [sscanf] at h
    split at h
    · cases h
    · next found rest' hscan =>
        obtain ⟨hfound, hrest⟩ := List.cons.inj h
        obtain rfl : found = item := Conversion.text.inj hfound
        obtain ⟨blanks, rfl, hblanks, _, hfree, _, hend⟩ := scanText_eq_some_iff.mp hscan
        cases rest' with
        | nil => exact absurd hrest.symm hsome
        | cons d rest =>
          rw [sscanf] at hrest
          split at hrest
          · next hd =>
              subst hd
              refine ⟨blanks, rest, rfl, hblanks, hfree, hend.resolve_right fun hblank => ?_, hrest⟩
              have hspace := hblank d rfl
              rw [hc] at hspace
              cases hspace
          · exact absurd hrest.symm hsome
  · rintro ⟨blanks, rest, rfl, hblanks, hfree, hlength, hrest⟩
    have hne : item ≠ [] := List.ne_nil_of_length_pos (by omega)
    have hscan : scanText width (blanks ++ (item ++ c :: rest)) = some (item, c :: rest) :=
      scanText_eq_some_iff.mpr ⟨blanks, rfl, hblanks, hne, hfree, hlength.le, .inl hlength⟩
    rw [sscanf, hscan]
    dsimp only
    rw [sscanf, if_pos rfl, hrest]

end Texts

/-! ### Numbers -/

section Numbers

variable {bare : Bool} {s ds rest : List UInt8}

/-- A number that begins with a digit has no sign. -/
theorem splitSign_of_isHexDigit {a : UInt8} (ha : isHexDigit a = true) (s : List UInt8) :
    splitSign (a :: s) = (false, a :: s) := by
  rw [splitSign]
  · rintro t ⟨rfl, -⟩
    cases ha
  · rintro t ⟨rfl, -⟩
    cases ha

/-- A number that does not begin with `0x` is read as it stands. -/
theorem prefixedHex_eq (h : ∀ x s', s = 48 :: x :: s' → x ≠ 120 ∧ x ≠ 88) : prefixedHex bare s = plainHex s := by
  rw [prefixedHex.eq_def]
  split
  · next x s =>
      obtain ⟨hlower, hupper⟩ := h x s rfl
      rw [if_neg (not_or.mpr ⟨hlower, hupper⟩)]
  · rfl

/-- The digits at the start. -/
theorem plainHex_append (hsome : ds ≠ []) (hds : ∀ b ∈ ds, isHexDigit b = true)
    (hrest : ∀ b ∈ rest.head?, isHexDigit b = false) : plainHex (ds ++ rest) = some (number ds, ds.length) := by
  have htake : (ds ++ rest).takeWhile isHexDigit = ds := by
    rw [List.takeWhile_append_of_pos hds]
    cases rest with
    | nil => rw [List.takeWhile_nil, List.append_nil]
    | cons c rest => rw [List.takeWhile_cons_of_neg (by rw [hrest c rfl]; decide), List.append_nil]
  rw [plainHex, htake, if_neg hsome]

/-- **A number of digits**, up to a byte that is neither a digit nor an `x`. -/
theorem scanHex_append (hsome : ds ≠ []) (hds : ∀ b ∈ ds, isHexDigit b = true)
    (hrest : ∀ b ∈ rest.head?, isHexDigit b = false ∧ b ≠ 120 ∧ b ≠ 88) :
    scanHex bare none (ds ++ rest) = some (unsignedLong false (number ds), rest) := by
  obtain ⟨a, ds', rfl⟩ := List.exists_cons_of_ne_nil hsome
  have ha := hds a List.mem_cons_self
  have hskip : (a :: ds' ++ rest).dropWhile isSpace = a :: ds' ++ rest :=
    List.dropWhile_cons_of_neg (by rw [isSpace_eq_false_of_isHexDigit ha]; decide)
  have hsecond : ∀ x s', a :: ds' ++ rest = 48 :: x :: s' → x ≠ 120 ∧ x ≠ 88 := by
    -- the second byte is a digit, or the byte behind a single digit
    intro x s' heq
    cases ds' with
    | nil =>
      obtain ⟨-, rfl⟩ := List.cons.inj heq
      exact (hrest x rfl).2
    | cons b ds' =>
      obtain ⟨rfl, -⟩ := List.cons.inj (List.cons.inj heq).2
      have hb := hds b (List.mem_cons_of_mem a List.mem_cons_self)
      exact ⟨ne_of_isHexDigit hb (by decide), ne_of_isHexDigit hb (by decide)⟩
  have hplain := plainHex_append hsome hds fun b hb => (hrest b hb).1
  rw [scanHex, hskip, List.cons_append, splitSign_of_isHexDigit ha, ← List.cons_append, prefixedHex_eq hsecond,
    hplain, Nat.sub_self, Option.map_some, Nat.zero_add, List.drop_left]

/-- **A number that is closed by a byte**, in a format. -/
theorem sscanf_hex_byte (hsome : ds ≠ []) (hds : ∀ b ∈ ds, isHexDigit b = true) {c : UInt8}
    (hc : isHexDigit c = false ∧ c ≠ 120 ∧ c ≠ 88) (format : List Directive) (rest : List UInt8) :
    sscanf bare (.hex none :: .byte c :: format) (ds ++ c :: rest) =
      .hex (unsignedLong false (number ds)) :: sscanf bare format rest := by
  have hclosed : ∀ b ∈ (c :: rest).head?, isHexDigit b = false ∧ b ≠ 120 ∧ b ≠ 88 := by
    intro b hb
    obtain rfl : c = b := Option.some.inj hb
    exact hc
  rw [sscanf, scanHex_append hsome hds hclosed]
  dsimp only
  rw [sscanf, if_pos rfl]

/-- A number begins with a digit. -/
theorem isSome_plainHex_cons (b : UInt8) (s : List UInt8) : (plainHex (b :: s)).isSome = isHexDigit b := by
  rw [plainHex, List.takeWhile_cons]
  cases isHexDigit b <;> rfl

/-- `%2x` on a text that begins with two bytes, the first of which is no blank. -/
theorem scanHex_two_eq {a : UInt8} (ha : isSpace a = false) (b : UInt8) :
    scanHex bare (some 2) (a :: b :: rest) = (prefixedHex bare (splitSign [a, b]).2).map fun item =>
      (unsignedLong (splitSign [a, b]).1 item.1, (a :: b :: rest).drop (2 - (splitSign [a, b]).2.length + item.2)) := by
  rw [scanHex, List.dropWhile_cons_of_neg (by rw [ha]; decide)]
  rfl

/-- **The two bytes of `%2x`**: it fails unless there is a digit, which may stand behind a sign. -/
theorem isSome_scanHex_two {a : UInt8} (ha : isSpace a = false) (b : UInt8) :
    (scanHex bare (some 2) (a :: b :: rest)).isSome =
      if a = 45 ∨ a = 43 then isHexDigit b
      else if a = 48 ∧ (b = 120 ∨ b = 88) then bare
      else isHexDigit a := by
  have hsingle : (prefixedHex bare [b]).isSome = isHexDigit b := by
    rw [prefixedHex_eq (fun _ _ heq => by cases heq), isSome_plainHex_cons]
  rw [scanHex_two_eq ha, Option.isSome_map]
  split
  · next hsign =>
      -- a sign leaves one byte of the two for the number
      rcases hsign with rfl | rfl
      · exact hsingle
      · exact hsingle
  · next hsign =>
      have hplain : splitSign [a, b] = (false, [a, b]) := by
        rw [splitSign]
        · rintro t ⟨rfl, -⟩
          exact hsign (.inl rfl)
        · rintro t ⟨rfl, -⟩
          exact hsign (.inr rfl)
      rw [hplain]
      split
      · next hbare =>
          obtain ⟨rfl, hx⟩ := hbare
          rw [prefixedHex, if_pos hx]
          cases bare <;> rfl
      · next hdigits =>
          rw [prefixedHex_eq, isSome_plainHex_cons]
          intro x s' heq
          obtain ⟨rfl, hsecond⟩ := List.cons.inj heq
          obtain ⟨rfl, -⟩ := List.cons.inj hsecond
          exact not_or.mp fun hx => hdigits ⟨rfl, hx⟩

/-- **Two digits.** -/
theorem scanHex_two {a b : UInt8} (ha : isHexDigit a = true) (hb : isHexDigit b = true) :
    scanHex bare (some 2) (a :: b :: rest) = some (UInt64.ofNat (digitValue a * 16 + digitValue b), rest) := by
  have hplain : prefixedHex bare [a, b] = some (number [a, b], 2) := by
    rw [prefixedHex_eq]
    · refine @plainHex_append [a, b] [] (List.cons_ne_nil _ _) ?_ (fun _ h => by cases h)
      exact List.forall_mem_cons.mpr ⟨ha, List.forall_mem_singleton.mpr hb⟩
    · intro x s' heq
      obtain ⟨rfl, -⟩ := List.cons.inj (List.cons.inj heq).2
      exact ⟨ne_of_isHexDigit hb (by decide), ne_of_isHexDigit hb (by decide)⟩
  have hvalue : number [a, b] = digitValue a * 16 + digitValue b := by
    rw [number, List.foldl_cons, List.foldl_cons, List.foldl_nil, Nat.zero_mul, Nat.zero_add]
  have hlt := digitValue_lt ha
  have hlt' := digitValue_lt hb
  rw [scanHex_two_eq (isSpace_eq_false_of_isHexDigit ha), splitSign_of_isHexDigit ha, hplain, Option.map_some, hvalue,
    unsignedLong, if_neg (by omega)]
  rfl

end Numbers

end Scanf
